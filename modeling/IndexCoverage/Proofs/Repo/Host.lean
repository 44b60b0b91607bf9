import IndexCoverage.Proofs.Number.Decimal
import IndexCoverage.Proofs.Text.Cutting
import IndexCoverage.Proofs.Text.Lower
import IndexCoverage.Repo.Uri

/-! The host of an authority, and its port. User information in front of them is dropped, and only
letters are changed. -/

namespace IndexCoverage
namespace Url

def hostWith (authority : Text) (port : Option Nat) : Text :=
  hostName (hostAndPort authority).1 ++ port.elim [] fun n => colon :: Text.ofNat n

variable {authority : Text} {c : CodePoint}

section Marks

theorem mem_hostAndPort (inside : c ∈ (hostAndPort authority).1) : c ∈ authority := by
  refine (Text.snd_cutLast_suffix (.char '@') authority).subset ?_
  cases opened : Text.cut (.char '[') (Text.cutLast (.char '@') authority).2 with
  | mk before after =>
    simp only [hostAndPort, opened] at inside
    cases after with
    | none => exact (Text.fst_cut_prefix ..).subset inside
    | some within =>
      exact (Text.suffix_of_snd_cut (congrArg Prod.snd opened)).subset
        ((Text.fst_cut_prefix ..).subset inside)

theorem mem_hostName {host : Text} (inside : c ∈ hostName host) (low : c.value ≤ 64) :
    c ∈ host := by
  unfold hostName at inside
  rcases Text.cut_cases (.char '%') host with ⟨-, parts⟩ | ⟨name, zone, rfl, -, parts⟩
  · rw [parts] at inside
    simp only [Option.elim, List.append_nil] at inside
    exact Text.mem_lower inside low
  · rw [parts] at inside
    rcases List.mem_append.mp inside with here | later
    · exact List.mem_append_left _ (Text.mem_lower here low)
    · exact List.mem_append_right _ later

theorem mem_lower_hostWith {port : Option Nat} (inside : c ∈ Text.lower (hostWith authority port))
    (low : c.value ≤ 64) : c ∈ authority ∨ c = colon ∨ c.isAsciiDigit = true := by
  have before := Text.mem_lower inside low
  rcases List.mem_append.mp before with here | later
  · exact .inl (mem_hostAndPort (mem_hostName here low))
  · cases port with
    | none => cases later
    | some n => exact .inr ((List.mem_cons.mp later).imp_right Text.isAsciiDigit_of_mem_ofNat)

end Marks

section Reading

theorem isDisguised_of_ascii (ascii : c.isAscii = true) : Host.isDisguised c = false :=
  CodePoint.of_ascii (p := fun c => Host.isDisguised c = false) (by decide +kernel) ascii

theorem authorityError?_of_ascii (ascii : authority.isAscii = true)
    (opened : CodePoint.char '[' ∉ authority) (closed : CodePoint.char ']' ∉ authority) :
    authorityError? authority = none := by
  have plain : authority.any Host.isDisguised = false := List.any_eq_false.mpr fun c inside =>
    ne_true_of_eq_false (isDisguised_of_ascii (List.all_eq_true.mp ascii c inside))
  simp [authorityError?, opened, closed, plain]

theorem hostAndPort_append {host : Text} (user : Option Text) (port : Option Text)
    (noUser : ∀ c ∈ host ++ port.elim [] (colon :: ·), c ≠ .char '@' ∧ c ≠ .char '[')
    (noPort : colon ∉ host) :
    hostAndPort (user.elim [] (· ++ [.char '@']) ++ (host ++ port.elim [] (colon :: ·))) =
      (host, port.getD []) := by
  have noAt : CodePoint.char '@' ∉ host ++ port.elim [] (colon :: ·) := fun inside =>
    (noUser _ inside).1 rfl
  have noBracket : CodePoint.char '[' ∉ host ++ port.elim [] (colon :: ·) := fun inside =>
    (noUser _ inside).2 rfl
  have address : (Text.cutLast (.char '@')
      (user.elim [] (· ++ [.char '@']) ++ (host ++ port.elim [] (colon :: ·)))).2 =
        host ++ port.elim [] (colon :: ·) := by
    cases user with
    | none => exact congrArg Prod.snd (Text.cutLast_of_notMem noAt)
    | some user =>
      have cut := Text.cutLast_append_cons user noAt
      rw [Option.elim, List.append_assoc, List.singleton_append, cut]
  simp only [hostAndPort, address, Text.cut_of_notMem noBracket]
  cases port with
  | none => simp [Text.cut_of_notMem noPort]
  | some port => simp [Text.cut_append_cons noPort]

theorem port?_digits {digits : List Char} (all : ∀ c ∈ digits, c.isDigit = true)
    (nonempty : digits ≠ []) (short : digits.length ≤ maxDigits)
    (small : Nat.ofDigitChars 10 digits 0 ≤ 65535) :
    port? (digits.map CodePoint.char) = .ok (some (Nat.ofDigitChars 10 digits 0)) := by
  have read : (digits.map CodePoint.char).all CodePoint.isAsciiDigit = true := by
    rw [List.all_map, List.all_eq_true]
    exact fun c inside => CodePoint.isAsciiDigit_of_isDigit (all c inside)
  rw [port?, if_neg (by simpa using nonempty), if_neg (by simp [read]),
    if_neg (by simpa using short), Numeral.valueOf_digits all]
  exact if_pos small

theorem port?_eq_none_iff {s : Text} : port? s = .ok none ↔ s = [] := by
  unfold port?
  by_cases empty : s = []
  · simp [empty]
  · rw [if_neg (by simpa using empty)]
    refine iff_of_false ?_ empty
    split
    · exact nofun
    · split
      · exact nofun
      · dsimp only
        split <;> exact nofun

theorem lower_hostWith_eq_iff {marks : Text} (low : ∀ c ∈ marks, c.value ≤ 64)
    (fixed : Text.lower marks = marks) (portless : colon ∉ marks)
    (zoneless : CodePoint.char '%' ∉ marks)
    {port : Option Nat} (reads : port? (hostAndPort authority).2 = .ok port) :
    Text.lower (hostWith authority port) = marks ↔ hostAndPort authority = (marks, []) := by
  have bare : hostName marks = marks := by
    simp [hostName, Text.cut_of_notMem zoneless, fixed]
  have named {host : Text} : hostName host = marks ↔ host = marks := by
    refine ⟨fun same => ?_, fun same => same ▸ bare⟩
    unfold hostName at same
    rcases Text.cut_cases (.char '%') host with ⟨-, parts⟩ | ⟨name, zone, -, -, parts⟩
    · rw [parts] at same
      simp only [Option.elim, List.append_nil] at same
      exact (Text.lower_eq_iff low fixed).mp same
    · rw [parts] at same
      exact absurd (by simp [← same]) zoneless
  rw [Text.lower_eq_iff low fixed, hostWith, Prod.ext_iff]
  constructor
  · intro same
    cases port with
    | none =>
      simp only [Option.elim, List.append_nil] at same
      exact ⟨named.mp same, port?_eq_none_iff.mp reads⟩
    | some n => exact absurd (by simp [← same]) portless
  · rintro ⟨same, absent⟩
    obtain rfl : port = none := by
      have none := port?_eq_none_iff.mpr absent
      exact Except.ok.inj (reads.symm.trans none)
    simp only [Option.elim, List.append_nil]
    exact named.mpr same

end Reading

end Url
end IndexCoverage
