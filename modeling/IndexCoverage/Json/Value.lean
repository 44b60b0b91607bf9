import IndexCoverage.Number.Binary64

/-! JSON documents. The fields of an object keep the order in which their keys
first came; a key that comes again replaces the value. -/

namespace IndexCoverage.Json

inductive Value where
  | null
  | bool (b : Bool)
  | int (n : Int)
  | float (x : Binary64)
  | str (s : Text)
  | arr (items : List Value)
  | obj (fields : List (Text × Value))

instance : Inhabited Value := ⟨.null⟩

inductive Bracket where
  | array
  | object
  deriving DecidableEq

/-- The fields with one more: in the place of the key if it is there, else at the end. -/
def put {α : Type} (key : Text) (value : α) : List (Text × α) → List (Text × α)
  | [] => [(key, value)]
  | (k, v) :: rest => if k = key then (key, value) :: rest else (k, v) :: put key value rest

theorem lookup_put {α : Type} (key k : Text) (value : α) (fields : List (Text × α)) :
    (put key value fields).lookup k = if k = key then some value else fields.lookup k := by
  induction fields with
  | nil =>
    by_cases h : k = key
    · simp [put, h]
    · simp [put, List.lookup_cons, beq_eq_false_iff_ne.mpr h, h]
  | cons field rest ih =>
    obtain ⟨k', v⟩ := field
    by_cases same : k' = key
    · subst same
      by_cases h : k = k'
      · simp [put, h]
      · simp [put, List.lookup_cons, beq_eq_false_iff_ne.mpr h, h]
    · by_cases h : k = k'
      · subst h
        simp [put, same]
      · simp [put, same, List.lookup_cons, beq_eq_false_iff_ne.mpr h, ih]

def get? (key : Text) (fields : List (Text × Value)) : Option Value := fields.lookup key

namespace Value

def field? (key : Text) : Value → Option Value
  | obj fields => get? key fields
  | _ => none

/-- Null, false, zero, and whatever is empty, do not count. -/
def counts : Value → Bool
  | null => false
  | bool b => b
  | int n => n ≠ 0
  | float x => !x.isZero
  | str s => !s.isEmpty
  | arr items => !items.isEmpty
  | obj fields => !fields.isEmpty

mutual

def same : Value → Value → Bool
  | .null, .null => true
  | .bool a, .bool b => a = b
  | .int a, .int b => a = b
  | .float a, .float b => a = b
  | .str a, .str b => a = b
  | .arr items, .arr others => sameItems items others
  | .obj fields, .obj others => sameFields fields others
  | _, _ => false

def sameItems : List Value → List Value → Bool
  | [], [] => true
  | item :: items, other :: others => same item other && sameItems items others
  | _, _ => false

def sameFields : List (Text × Value) → List (Text × Value) → Bool
  | [], [] => true
  | (key, value) :: fields, (other, more) :: others =>
    key = other && same value more && sameFields fields others
  | _, _ => false

end

mutual

theorem same_iff (a b : Value) : same a b = true ↔ a = b := by
  cases a with
  | arr items => cases b <;> simp [same, sameItems_iff]
  | obj fields => cases b <;> simp [same, sameFields_iff]
  | _ => cases b <;> simp [same]

theorem sameItems_iff (items others : List Value) :
    sameItems items others = true ↔ items = others := by
  match items, others with
  | [], [] => simp [sameItems]
  | [], _ :: _ => simp [sameItems]
  | _ :: _, [] => simp [sameItems]
  | item :: items, other :: others => simp [sameItems, same_iff item, sameItems_iff items]

theorem sameFields_iff (fields others : List (Text × Value)) :
    sameFields fields others = true ↔ fields = others := by
  match fields, others with
  | [], [] => simp [sameFields]
  | [], _ :: _ => simp [sameFields]
  | _ :: _, [] => simp [sameFields]
  | (key, value) :: fields, (other, more) :: others =>
    simp [sameFields, same_iff value, sameFields_iff fields]

end

instance : DecidableEq Value := fun a b => decidable_of_iff _ (same_iff a b)

end Value
end IndexCoverage.Json
