import IndexCoverage.Store

/-! Documents that nest too far. However many brackets above the limit a document
begins with, the limit is met before their ends are missed. -/

namespace IndexCoverage
namespace Json

def bracketByte : UInt8 := 91

theorem readUtf8_bracket (keepLone : Bool) (rest : Bytes) :
    Text.readUtf8 keepLone 0 0 0 (bracketByte :: rest) =
      (Text.readUtf8 keepLone 0 0 0 rest).map (.char '[' :: ·) := rfl

theorem readUtf8_brackets (keepLone : Bool) (n : Nat) :
    Text.readUtf8 keepLone 0 0 0 (List.replicate n bracketByte) =
      some (List.replicate n (.char '[')) := by
  induction n with
  | zero => rfl
  | succ n ih =>
    rw [List.replicate_succ, readUtf8_bracket, ih, Option.map_some, List.replicate_succ]

theorem skipSpace_brackets (n : Nat) :
    skipSpace (List.replicate n (.char '[')) = List.replicate n (.char '[') := by
  cases n <;> simp [List.replicate_succ, skipSpace, isSpace]

theorem readValue_brackets {depth n fuel : Nat} (deep : depth < n) (enough : 2 * depth < fuel) :
    readValue fuel depth (List.replicate n (.char '[')) = .error (.tooDeep .array) := by
  induction depth generalizing n fuel with
  | zero =>
    obtain ⟨n, rfl⟩ := Nat.exists_eq_add_one.mpr deep
    obtain ⟨fuel, rfl⟩ := Nat.exists_eq_add_one.mpr enough
    simp [List.replicate_succ, readValue]
  | succ depth ih =>
    obtain ⟨n, rfl⟩ : ∃ m, n = m + 2 := ⟨n - 2, by omega⟩
    obtain ⟨fuel, rfl⟩ : ∃ m, fuel = m + 2 := ⟨fuel - 2, by omega⟩
    have items : readItems (fuel + 1) depth (List.replicate (n + 1) (.char '[')) =
        .error (.tooDeep .array) := by
      rw [readItems, ih (by omega) (by omega)]
      rfl
    have spaceless := skipSpace_brackets (n + 1)
    rw [List.replicate_succ] at items spaceless
    simp [List.replicate_succ, readValue, spaceless, items, Bind.bind, Except.bind]

theorem readText_brackets {depth n : Nat} (deep : depth < n) :
    readText depth (List.replicate n (.char '[')) = .error (.tooDeep .array) := by
  rw [readText, skipSpace_brackets, List.length_replicate, readValue_brackets deep (by omega)]
  rfl

theorem ofMarkedBytes?_brackets (n : Nat) :
    Text.ofMarkedBytes? (List.replicate n bracketByte) = some (List.replicate n (.char '[')) :=
  match n with
  | 0 | 1 | 2 | 3 => rfl
  | n + 4 => readUtf8_brackets true (n + 4)

theorem readBytes_brackets {depth n : Nat} (deep : depth < n) :
    readBytes depth (List.replicate n bracketByte) = .error (.tooDeep .array) := by
  rw [readBytes, ofMarkedBytes?_brackets]
  exact readText_brackets deep

end Json

theorem Store.decode_brackets (name : Text) {depth n : Nat} (deep : depth < n) :
    decode depth name (List.replicate n Json.bracketByte) = .error (.fault (.tooDeep .array)) := by
  have full : isEmptyDocument (List.replicate n Json.bracketByte) = false := by
    obtain ⟨n, rfl⟩ := Nat.exists_eq_add_one.mpr (Nat.zero_lt_of_lt deep)
    rfl
  rw [decode, full, Json.readBytes_brackets deep]
  rfl

end IndexCoverage
