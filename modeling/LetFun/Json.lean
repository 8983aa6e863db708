import LetFun.Text.CodePoint
/-!
# JSON values

Integers and floating-point numbers are different values. The members of an object are in order and
have different keys; `insert` keeps it so, a later value taking the place of an earlier one.
-/

namespace LetFun

inductive Json where
  | null
  | bool (b : Bool)
  | integer (i : Int)
  | float (x : Float)
  | string (t : Text)
  | array (items : List Json)
  | object (members : List (Text × Json))

namespace Json

def ofString (s : String) : Json :=
  .string (Text.ofString s)

def get? (key : String) (members : List (Text × Json)) : Option Json :=
  members.lookup (Text.ofString key)

/-- The members with one more, which replaces a member of the same key. -/
def insert (key : Text) (value : Json) : List (Text × Json) → List (Text × Json)
  | [] => [(key, value)]
  | (k, v) :: rest => if k = key then (k, value) :: rest else (k, v) :: insert key value rest

def ofPairs (pairs : List (Text × Json)) : List (Text × Json) :=
  pairs.foldl (fun members (k, v) => insert k v members) []

theorem sizeOf_lt_of_lookup {key : Text} {members : List (Text × Json)} {value : Json}
    (h : members.lookup key = some value) : sizeOf value < sizeOf members := by
  induction members with
  | nil => simp at h
  | cons m rest ih =>
    obtain ⟨k, v⟩ := m
    rw [List.lookup_cons] at h
    split at h
    · cases h
      simp
      omega
    · have := ih h
      simp
      omega

end Json

end LetFun
