import VaultwardenEso.Lib.Str

set_option autoImplicit false

/-! Shared data types: the crate `bweso-core`. -/
namespace VaultwardenEso.BwesoCore
open RustStr

structure RemoteRef where
  key : Str
  property : Option Str
  version : Option Str
  deriving DecidableEq, Repr

/-- `BTreeMap<String, String>`. -/
abbrev StringMap := Std.ExtTreeMap Str Str

structure SecretDocument where
  data : StringMap
  metadata : StringMap

def SecretDocument.empty : SecretDocument := ⟨∅, ∅⟩

def SecretDocument.single (key value : Str) : SecretDocument :=
  ⟨(∅ : StringMap).insert key value, ∅⟩

inductive ValidationError where
  | emptyField (field : String)
  deriving DecidableEq, Repr

def requireNonEmpty (value : Str) (field : String) : Except ValidationError Unit :=
  if trim value = [] then .error (.emptyField field) else .ok ()

theorem requireNonEmpty_eq_ok {value : Str} {field : String} :
    requireNonEmpty value field = .ok () ↔ trim value ≠ [] := by
  unfold requireNonEmpty
  split <;> simp_all

end VaultwardenEso.BwesoCore
