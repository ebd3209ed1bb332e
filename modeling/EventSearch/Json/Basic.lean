import EventSearch.Double.Basic
import EventSearch.Fields

/-!
# JSON values

Whole numbers and doubles are different values. A whole number fits sixty-four bits with or
without sign, a double is finite, and an object holds its members in increasing order of
their names.
-/
namespace EventSearch

/-- The whole numbers that a document can hold. -/
def FitsWord (n : Int) : Prop := -0x8000000000000000 ≤ n ∧ n < 0x10000000000000000

instance (n : Int) : Decidable (FitsWord n) := inferInstanceAs (Decidable (_ ∧ _))

inductive Json where
  | null
  | bool (b : Bool)
  | int (n : Int) (fits : FitsWord n)
  | double (d : Double) (finite : d.isFinite = true)
  | str (s : String)
  | arr (items : List Json)
  | obj (members : List (String × Json))
deriving Repr, Inhabited

namespace Json

/-- The object with the given members, of which the last of a name counts. -/
def object (members : List (String × Json)) : Json := .obj (Fields.ofList members)

def int? (n : Int) : Option Json := if h : FitsWord n then some (.int n h) else none

def double? (d : Double) : Option Json :=
  if h : d.isFinite = true then some (.double d h) else none

/-- A double, or null when it has no JSON form. -/
def ofDouble (d : Double) : Json := (double? d).getD .null

def ofInt64 (n : Int64) : Json :=
  .int n.toInt ⟨Int64.le_toInt n, Int.lt_trans (Int64.toInt_lt n) (by decide)⟩

def ofUInt64 (n : UInt64) : Json :=
  .int n.toNat ⟨Int.le_trans (by decide) (Int.natCast_nonneg _), Int.ofNat_lt.2 n.toNat_lt⟩

/-- The member of an object. -/
def get? (name : String) : Json → Option Json
  | .obj members => Fields.get? name members
  | _ => none

def str? : Json → Option String
  | .str s => some s
  | _ => none

def bool? : Json → Option Bool
  | .bool b => some b
  | _ => none

def arr? : Json → Option (List Json)
  | .arr items => some items
  | _ => none

end Json

end EventSearch
