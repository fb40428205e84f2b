import VaultwardenEso.Lib.JsonText
import VaultwardenEso.Metrics
import VaultwardenEso.Webhook

set_option autoImplicit false

/-!
# Bodies of requests and responses: `bweso-core`, `main.rs`

The derived serializers, and what a client of the webhook reads in the bytes of a response.
-/
namespace VaultwardenEso.BwesoCore
open RustStr Serde

def dataMember : Member := ⟨"data".toList, []⟩

def metadataMember : Member := ⟨"metadata".toList, []⟩

def serializeMap (map : StringMap) : Json :=
  .obj (map.toList.map (fun entry => (entry.1, .str entry.2)))

/-- Of entries with the same key the last one counts. -/
def deserializeMap : Json → Option StringMap
  | .obj members =>
    (members.mapM (fun member => (string member.2).map (fun value => (member.1, value)))).map
      (fun entries => Std.ExtTreeMap.ofList entries)
  | _ => none

def SecretDocument.fields (document : SecretDocument) : List (Member × Json) :=
  [(dataMember, serializeMap document.data), (metadataMember, serializeMap document.metadata)]

theorem SecretDocument.fields_members (document : SecretDocument) :
    document.fields.map Prod.fst = [dataMember, metadataMember] := rfl

def SecretDocument.serialize (document : SecretDocument) : Json := written document.fields

def deserializeSecretDocument (j : Json) : Option SecretDocument := do
  let slots ← record [dataMember, metadataMember] j
  let data ← required deserializeMap (slots dataMember)
  let metadata ← match slots metadataMember with
    | none => pure ∅
    | some j => deserializeMap j
  return ⟨data, metadata⟩

theorem deserializeMap_serializeMap (map : StringMap) :
    deserializeMap (serializeMap map) = some map := by
  have hentries : ∀ entries : List (Str × Str), (entries.map (fun entry =>
      (entry.1, Json.str entry.2))).mapM (fun member =>
        (string member.2).map (fun value => (member.1, value))) = some entries := by
    intro entries
    induction entries with
    | nil => rfl
    | cons entry entries ih =>
      rw [List.map_cons, List.mapM_cons, ih]
      rfl
  rw [serializeMap, deserializeMap, hentries, Option.map_some, BTreeMap.ofList_toList]

theorem deserializeSecretDocument_serialize (document : SecretDocument) :
    deserializeSecretDocument document.serialize = some document := by
  obtain ⟨slots, hslots, hfields⟩ := record_written document.fields_members (by decide)
  have hdata : slots dataMember = some (serializeMap document.data) :=
    hfields (dataMember, _) (.head _)
  have hmetadata : slots metadataMember = some (serializeMap document.metadata) :=
    hfields (metadataMember, _) (.tail _ (.head _))
  simp only [deserializeSecretDocument, SecretDocument.serialize, hslots, Option.bind_eq_bind,
    Option.bind_some, hdata, hmetadata, required, deserializeMap_serializeMap]
  rfl

end VaultwardenEso.BwesoCore

namespace VaultwardenEso.Provider
open RustStr Serde BwesoCore Cipher Client

/-! ## Remote references -/

def serializeOption : Option Str → Json
  | none => .null
  | some s => .str s

def remoteRefFields (remoteRef : RemoteRef) : List (Member × Json) :=
  [(keyMember, .str remoteRef.key), (propertyMember, serializeOption remoteRef.property),
    (versionMember, serializeOption remoteRef.version)]

theorem remoteRefFields_members (remoteRef : RemoteRef) :
    (remoteRefFields remoteRef).map Prod.fst = [keyMember, propertyMember, versionMember] := rfl

def serializeRemoteRef (remoteRef : RemoteRef) : Json := written (remoteRefFields remoteRef)

def resolveRequest (remoteRef : RemoteRef) : Json :=
  written [(remoteRefMember, serializeRemoteRef remoteRef)]

theorem optional_serializeOption (value : Option Str) :
    optional string (some (serializeOption value)) = some value := by
  cases value with
  | none => rfl
  | some s => rfl

theorem deserializeRemoteRef_serialize (remoteRef : RemoteRef) :
    deserializeRemoteRef (serializeRemoteRef remoteRef) = some remoteRef := by
  obtain ⟨slots, hslots, hfields⟩ := record_written (remoteRefFields_members remoteRef) (by decide)
  have hkey : slots keyMember = some (.str remoteRef.key) :=
    hfields (keyMember, _) (.head _)
  have hproperty : slots propertyMember = some (serializeOption remoteRef.property) :=
    hfields (propertyMember, _) (.tail _ (.head _))
  have hversion : slots versionMember = some (serializeOption remoteRef.version) :=
    hfields (versionMember, _) (.tail _ (.tail _ (.head _)))
  simp only [deserializeRemoteRef, serializeRemoteRef, hslots, Option.bind_eq_bind,
    Option.bind_some, hkey, hproperty, hversion, required, string, optional_serializeOption]
  rfl

theorem deserializeResolveRequest_resolveRequest (remoteRef : RemoteRef) :
    deserializeResolveRequest (resolveRequest remoteRef) = some remoteRef := by
  have hnames : [(remoteRefMember, serializeRemoteRef remoteRef)].map Prod.fst =
      [remoteRefMember] := rfl
  obtain ⟨slots, hslots, hfields⟩ := record_written hnames (by decide)
  have hremoteRef : slots remoteRefMember = some (serializeRemoteRef remoteRef) :=
    hfields (remoteRefMember, _) (.head _)
  simp only [deserializeResolveRequest, resolveRequest, hslots, Option.bind_eq_bind,
    Option.bind_some, hremoteRef, required, deserializeRemoteRef_serialize]

/-! ## Responses -/

def errorMember : Member := ⟨"error".toList, []⟩

def serializeError (message : String) : Json := written [(errorMember, .str message.toList)]

structure HttpResponse where
  status : UInt16
  contentType : Str
  body : Bytes

/-- `$.name.name…` of a tree. -/
def jsonPath : List Str → Json → Option Json
  | [], j => some j
  | name :: names, .obj members =>
    ((members.find? (fun member => member.1 = name)).map Prod.snd).bind (jsonPath names)
  | _ :: _, _ => none

section Bodies
variable (serde : SerdeJson)

def jsonResponse (status : StatusCode) (j : Json) : HttpResponse where
  status := status.asU16
  contentType := "application/json".toList
  body := serde.toVec j

def Response.render : Response → HttpResponse
  | .document secrets => jsonResponse serde .ok secrets.serialize
  | .error status message => jsonResponse serde status (serializeError message)

/-- What a client finds at a path in the body. -/
def HttpResponse.read (response : HttpResponse) (path : List Str) : Option Json :=
  (serde.fromSlice response.body).bind (jsonPath path)

end Bodies

theorem textual_serializeMap (map : StringMap) : Textual (serializeMap map) := by
  refine .obj _ ?_ ?_
  · rw [List.map_map]
    exact List.pairwise_map.mpr (BTreeMap.keys_toList map)
  · intro member hmember
    obtain ⟨entry, -, rfl⟩ := List.mem_map.mp hmember
    exact .str entry.2

theorem textual_document (document : SecretDocument) : Textual document.serialize := by
  refine textual_written document.fields_members (by decide) ?_
  intro field hfield
  simp only [SecretDocument.fields, List.mem_cons, List.not_mem_nil, or_false] at hfield
  rcases hfield with rfl | rfl
  · exact textual_serializeMap document.data
  · exact textual_serializeMap document.metadata

theorem textual_option (value : Option Str) : Textual (serializeOption value) := by
  cases value with
  | none => exact .null
  | some s => exact .str s

theorem textual_resolveRequest (remoteRef : RemoteRef) : Textual (resolveRequest remoteRef) := by
  have hnames : [(remoteRefMember, serializeRemoteRef remoteRef)].map Prod.fst =
      [remoteRefMember] := rfl
  refine textual_written hnames (by decide) ?_
  intro field hfield
  rw [List.mem_singleton.mp hfield]
  refine textual_written (remoteRefFields_members remoteRef) (by decide) ?_
  intro field hfield
  simp only [remoteRefFields, List.mem_cons, List.not_mem_nil, or_false] at hfield
  rcases hfield with rfl | rfl | rfl
  · exact .str remoteRef.key
  · exact textual_option remoteRef.property
  · exact textual_option remoteRef.version

theorem textual_error (message : String) : Textual (serializeError message) := by
  have hnames : [(errorMember, Json.str message.toList)].map Prod.fst = [errorMember] := rfl
  refine textual_written hnames (by decide) ?_
  intro field hfield
  rw [List.mem_singleton.mp hfield]
  exact .str message.toList

section Reading
variable {serde : SerdeJson}

theorem read_document (hserde : serde.RoundTrips) (document : SecretDocument) (path : List Str) :
    ((Response.document document).render serde).read serde path =
      jsonPath path document.serialize := by
  rw [HttpResponse.read, Response.render, jsonResponse, hserde _ (textual_document document),
    Option.bind_some]

theorem read_error (hserde : serde.RoundTrips) (status : StatusCode) (message : String)
    (path : List Str) : ((Response.error status message).render serde).read serde path =
      jsonPath path (serializeError message) := by
  rw [HttpResponse.read, Response.render, jsonResponse, hserde _ (textual_error message),
    Option.bind_some]

theorem jsonPath_data (document : SecretDocument) (key : Str) :
    jsonPath ["data".toList, key] document.serialize = (document.data[key]?).map .str := by
  have hfind : (document.data.toList.map (fun entry => (entry.1, Json.str entry.2))).find?
      (fun member => member.1 = key) =
        (document.data.toList.find? (fun entry => entry.1 = key)).map
          (fun entry => (entry.1, Json.str entry.2)) := by
    rw [List.find?_map]
    rfl
  have hdata : jsonPath ["data".toList, key] document.serialize =
      jsonPath [key] (serializeMap document.data) := rfl
  rw [hdata, serializeMap, jsonPath, hfind, Option.map_map, ← BTreeMap.find?_toList, Option.map_map]
  cases document.data.toList.find? (fun entry => entry.1 = key) with
  | none => rfl
  | some entry => rfl

theorem StatusCode.asU16_injective : Function.Injective StatusCode.asU16 := by
  intro status status' h
  cases status <;> cases status' <;> first | rfl | exact absurd h (by decide)

theorem render_injective (hserde : serde.RoundTrips) :
    Function.Injective (Response.render serde) := by
  intro response response' h
  have hread : ∀ path, (response.render serde).read serde path =
      (response'.render serde).read serde path := by
    rw [h]
    exact fun _ => rfl
  cases response with
  | document document =>
    cases response' with
    | document document' =>
      have hbody := congrArg (fun r => (serde.fromSlice r.body).bind deserializeSecretDocument) h
      simp only [Response.render, jsonResponse, hserde _ (textual_document _), Option.bind_some,
        deserializeSecretDocument_serialize, Option.some.injEq] at hbody
      rw [hbody]
    | error status message =>
      have herror := hread ["error".toList]
      rw [read_document hserde, read_error hserde] at herror
      cases herror
  | error status message =>
    cases response' with
    | document document =>
      have herror := hread ["error".toList]
      rw [read_document hserde, read_error hserde] at herror
      cases herror
    | error status' message' =>
      have hstatus : status = status' :=
        StatusCode.asU16_injective (congrArg HttpResponse.status h)
      have hmessage := hread ["error".toList]
      rw [read_error hserde, read_error hserde] at hmessage
      have htext : message.toList = message'.toList := Json.str.inj (Option.some.inj hmessage)
      rw [hstatus, String.toList_inj.mp htext]

end Reading

end VaultwardenEso.Provider
