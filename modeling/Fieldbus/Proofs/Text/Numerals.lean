import Fieldbus.Text.Numeral
import Mathlib.Data.List.TakeWhile

/-!
# Numerals that are read back

A number that is spelled out in a base is read as this number, whatever the case of its letters
and however many zeros lead.  Numerals of letters and digits only are read as they stand: nothing
of them is a blank, a sign, an underscore or a digit of another script.
-/

namespace Fieldbus

namespace Numeral

variable {base value : Nat} {c : Char} {text : List Char}

section Characters

/-- A letter or a digit of ASCII. -/
def IsAlphanumeric (c : Char) : Prop :=
  (48 ≤ c.toNat ∧ c.toNat ≤ 57) ∨ (97 ≤ c.toNat ∧ c.toNat ≤ 122) ∨ (65 ≤ c.toNat ∧ c.toNat ≤ 90)

instance (c : Char) : Decidable (IsAlphanumeric c) :=
  inferInstanceAs (Decidable (_ ∨ _ ∨ _))

theorem IsAlphanumeric.ne_of_not {other : Char} (isAlphanumeric : IsAlphanumeric c)
    (different : ¬ IsAlphanumeric other) : c ≠ other := by
  rintro rfl
  exact different isAlphanumeric

theorem IsAlphanumeric.narrow (isAlphanumeric : IsAlphanumeric c) : narrow c = c := by
  rw [Numeral.narrow, if_pos]
  rcases isAlphanumeric with digit | lower | upper <;> omega

theorem IsAlphanumeric.not_blank (isAlphanumeric : IsAlphanumeric c) :
    Character.isAsciiBlank c = false := by
  have notSpace : c ≠ ' ' := isAlphanumeric.ne_of_not (by decide)
  have notControl : ¬ (9 ≤ c.toNat ∧ c.toNat ≤ 13) := by
    rcases isAlphanumeric with digit | lower | upper <;> omega
  rw [Character.isAsciiBlank]
  simpa [notSpace] using notControl

theorem toLower_cases (c : Char) :
    c.toLower = c ∨ (65 ≤ c.toNat ∧ c.toNat ≤ 90) ∧ c.toLower.toNat = c.toNat + 32 := by
  by_cases capital : 'A'.val ≤ c.val ∧ c.val ≤ 'Z'.val
  · have bounds : 65 ≤ c.toNat ∧ c.toNat ≤ 90 := capital
    have lowered : c.toLower = ⟨c.val + ('a'.val - 'A'.val), _⟩ := dif_pos capital
    refine Or.inr ⟨bounds, ?_⟩
    rw [lowered]
    show (c.val + (97 - 65)).toNat = c.val.toNat + 32
    have small : c.val.toNat ≤ 90 := bounds.2
    rw [UInt32.toNat_add]
    have : (97 - 65 : UInt32).toNat = 32 := rfl
    omega
  · exact Or.inl (dif_neg capital)

theorem isAlphanumeric_of_toLower (lowered : IsAlphanumeric c.toLower) : IsAlphanumeric c := by
  rcases toLower_cases c with same | ⟨capital, _⟩
  · rwa [same] at lowered
  · exact Or.inr (Or.inr capital)

theorem digitValue?_eq (c : Char) :
    digitValue? c =
      if 48 ≤ c.toNat ∧ c.toNat ≤ 57 then some (c.toNat - 48)
      else if 97 ≤ c.toNat ∧ c.toNat ≤ 122 then some (c.toNat - 97 + 10)
      else if 65 ≤ c.toNat ∧ c.toNat ≤ 90 then some (c.toNat - 65 + 10)
      else none :=
  rfl

theorem digitValue?_toLower (c : Char) : digitValue? c.toLower = digitValue? c := by
  rcases toLower_cases c with same | ⟨capital, lowered⟩
  · rw [same]
  · have notDigit : ¬ (48 ≤ c.toNat ∧ c.toNat ≤ 57) := by omega
    have notLower : ¬ (97 ≤ c.toNat ∧ c.toNat ≤ 122) := by omega
    rw [digitValue?_eq, digitValue?_eq, if_neg (by omega), if_pos (by omega), if_neg notDigit,
      if_neg notLower, if_pos capital]
    congr 1
    omega

theorem toLower_eq_underscore_iff : c.toLower = '_' ↔ c = '_' := by
  rcases toLower_cases c with same | ⟨capital, lowered⟩
  · rw [same]
  · constructor
    · intro underscore
      rw [underscore] at lowered
      have : ('_' : Char).toNat = 95 := rfl
      omega
    · rintro rfl
      rfl

end Characters

section Digits

theorem digitValue?_digitChar {digit : Nat} (small : digit < 16) :
    digitValue? (Nat.digitChar digit) = some digit := by
  have all : ∀ digit < 16, digitValue? (Nat.digitChar digit) = some digit := by decide
  exact all digit small

theorem isAlphanumeric_digitChar {digit : Nat} (small : digit < 16) :
    IsAlphanumeric (Nat.digitChar digit) := by
  have all : ∀ digit < 16, IsAlphanumeric (Nat.digitChar digit) := by decide
  exact all digit small

theorem exists_digit_of_mem_toDigits (positive : 1 < base) (member : c ∈ Nat.toDigits base value) :
    ∃ digit < base, c = Nat.digitChar digit := by
  induction value using Nat.strongRecOn with
  | ind value ih =>
      by_cases short : value < base
      · rw [Nat.toDigits_of_lt_base short, List.mem_singleton] at member
        exact ⟨value, short, member⟩
      · rw [Nat.toDigits_of_base_le positive (by omega), List.mem_append,
          List.mem_singleton] at member
        rcases member with early | last
        · exact ih _ (Nat.div_lt_self (by omega) positive) early
        · exact ⟨value % base, Nat.mod_lt _ (by omega), last⟩

theorem digitsFrom?_cons_digit {digit before : Nat} {after : Bool} {rest : List Char}
    (inBase : digit < base) (small : base ≤ 16) :
    digitsFrom? base before after (Nat.digitChar digit :: rest) =
      digitsFrom? base (before * base + digit) true rest := by
  have notUnderscore : Nat.digitChar digit ≠ '_' :=
    (isAlphanumeric_digitChar (by omega)).ne_of_not (by decide)
  rw [digitsFrom?, if_neg notUnderscore, digitValue?_digitChar (by omega)]
  simp only [if_pos inBase]

theorem digitsFrom?_toDigits (positive : 1 < base) (small : base ≤ 16) (after : Bool)
    (rest : List Char) :
    digitsFrom? base 0 after (Nat.toDigits base value ++ rest) =
      digitsFrom? base value true rest := by
  induction value using Nat.strongRecOn generalizing rest with
  | ind value ih =>
      by_cases short : value < base
      · rw [Nat.toDigits_of_lt_base short, List.singleton_append,
          digitsFrom?_cons_digit short small, Nat.zero_mul, Nat.zero_add]
      · have remainder : value % base < base := Nat.mod_lt _ (by omega)
        rw [Nat.toDigits_of_base_le positive (by omega), List.append_assoc, List.singleton_append,
          ih _ (Nat.div_lt_self (by omega) positive), digitsFrom?_cons_digit remainder small,
          Nat.div_add_mod']

theorem digitsFrom?_zeros (positive : 1 < base) (small : base ≤ 16) (zeros : Nat) (after : Bool) :
    digitsFrom? base 0 after (List.replicate zeros '0' ++ Nat.toDigits base value) =
      some value := by
  induction zeros generalizing after with
  | zero =>
      rw [List.replicate_zero, List.nil_append, ← List.append_nil (Nat.toDigits base value),
        digitsFrom?_toDigits positive small]
      rfl
  | succ zeros ih =>
      rw [List.replicate_succ, List.cons_append]
      show digitsFrom? base 0 after (Nat.digitChar 0 :: _) = _
      rw [digitsFrom?_cons_digit (by omega) small, Nat.zero_mul, Nat.zero_add]
      exact ih true

theorem digitsFrom?_map_toLower (before : Nat) (after : Bool) (text : List Char) :
    digitsFrom? base before after (text.map Char.toLower) = digitsFrom? base before after text := by
  induction text generalizing before after with
  | nil => rfl
  | cons c rest ih =>
      rw [List.map_cons, digitsFrom?, digitsFrom?, digitValue?_toLower]
      simp only [toLower_eq_underscore_iff, ih]

end Digits

/-- The text spells out a number in a base, in letters of any case and after any zeros. -/
def Spells (base value : Nat) (text : List Char) : Prop :=
  ∃ zeros, text.map Char.toLower = List.replicate zeros '0' ++ Nat.toDigits base value

namespace Spells

variable (spells : Spells base value text) (positive : 1 < base) (small : base ≤ 16)

include spells positive small

omit small in
theorem exists_digit : ∀ c ∈ text, ∃ digit < base, c.toLower = Nat.digitChar digit := by
  obtain ⟨zeros, lowered⟩ := spells
  intro c member
  have inside := List.mem_map_of_mem member (f := Char.toLower)
  rw [lowered, List.mem_append] at inside
  rcases inside with zero | digit
  · exact ⟨0, by omega, List.eq_of_mem_replicate zero⟩
  · exact exists_digit_of_mem_toDigits positive digit

theorem isAlphanumeric : ∀ c ∈ text, IsAlphanumeric c := by
  intro c member
  obtain ⟨digit, inBase, lowered⟩ := spells.exists_digit positive c member
  apply isAlphanumeric_of_toLower
  rw [lowered]
  exact isAlphanumeric_digitChar (by omega)

theorem digitsFrom? : Numeral.digitsFrom? base 0 false text = some value := by
  obtain ⟨zeros, lowered⟩ := spells
  rw [← digitsFrom?_map_toLower, lowered]
  exact digitsFrom?_zeros positive small zeros false

end Spells

section Integers

theorem trim_of_isAlphanumeric (all : ∀ c ∈ text, IsAlphanumeric c) : trim text = text := by
  have keeps : ∀ other : List Char, (∀ c ∈ other, IsAlphanumeric c) →
      other.dropWhile Character.isAsciiBlank = other := by
    intro other same
    rw [List.dropWhile_eq_self_iff]
    intro inhabited
    rw [(same _ (List.getElem_mem inhabited)).not_blank]
    exact Bool.false_ne_true
  simp only [trim]
  rw [keeps text all, keeps text.reverse fun c member => all c (List.mem_reverse.mp member),
    List.reverse_reverse]

/-- A numeral of letters and digits is read as it stands. -/
theorem integer?_of_isAlphanumeric (all : ∀ c ∈ text, IsAlphanumeric c) :
    integer? base text = (natural? base text).map fun (value : Nat) => (value : Int) := by
  have narrowed : text.map narrow = text := by
    have same : text.map narrow = text.map id :=
      List.map_congr_left fun c member => (all c member).narrow
    rw [same, List.map_id]
  rw [integer?, narrowed, trim_of_isAlphanumeric all]
  split
  · exact absurd (all '-' List.mem_cons_self) (by decide)
  · exact absurd (all '+' List.mem_cons_self) (by decide)
  · cases natural? base text with
    | none => rfl
    | some value => rfl

/-- A decimal numeral is read unless it is too long. -/
theorem integer?_decimal (spells : Spells 10 value text) :
    integer? 10 text = if maxDecimalDigits < text.length then none else some (value : Int) := by
  have all := spells.isAlphanumeric (by decide) (by decide)
  have count : text.countP (· ≠ '_') = text.length := by
    rw [List.countP_eq_length]
    intro c member
    simpa using (all c member).ne_of_not (by decide)
  have natural : natural? 10 text = digits? 10 text := by
    simp [natural?]
  rw [integer?_of_isAlphanumeric all, natural, digits?, count,
    spells.digitsFrom? (by decide) (by decide)]
  split <;> rename_i long
  · rw [if_pos long.2]
    rfl
  · rw [if_neg fun longer => long ⟨rfl, longer⟩]
    rfl

/-- A hexadecimal numeral with its mark in any case is read, also where the mark names the base. -/
theorem integer?_marked (takes : base = 0 ∨ base = 16) {mark : Char}
    (marked : mark = 'x' ∨ mark = 'X') (spells : Spells 16 value text) :
    integer? base ('0' :: mark :: text) = some (value : Int) := by
  have all := spells.isAlphanumeric (by decide) (by decide)
  have allMarked : ∀ c ∈ '0' :: mark :: text, IsAlphanumeric c := by
    intro c member
    rcases List.mem_cons.mp member with rfl | member
    · decide
    · rcases List.mem_cons.mp member with rfl | member
      · rcases marked with rfl | rfl <;> decide
      · exact all c member
  have digits : markedDigits? 16 text = some value := by
    rw [markedDigits?.eq_def]
    split
    · exact absurd (all '_' List.mem_cons_self) (by decide)
    · rw [digits?, if_neg (by simp), spells.digitsFrom? (by decide) (by decide)]
  have natural : natural? base ('0' :: mark :: text) = markedDigits? 16 text := by
    rcases takes with rfl | rfl <;> rcases marked with rfl | rfl <;> simp [natural?]
  rw [integer?_of_isAlphanumeric allMarked, natural, digits]
  rfl

theorem integer?_hexadecimal {mark : Char} (marked : mark = 'x' ∨ mark = 'X')
    (spells : Spells 16 value text) : integer? 16 ('0' :: mark :: text) = some (value : Int) :=
  integer?_marked (Or.inr rfl) marked spells

/-- No hexadecimal digit is taken for a mark, so a hexadecimal numeral is read without one, too. -/
theorem integer?_unmarked (spells : Spells 16 value text) :
    integer? 16 text = some (value : Int) := by
  have all := spells.isAlphanumeric (by decide) (by decide)
  have beyond : ∀ digit < 16, Nat.digitChar digit ≠ 'x' := by decide
  have noMark : ∀ mark, mark = 'x' ∨ mark = 'X' → ∀ rest, text ≠ '0' :: mark :: rest := by
    rintro mark marked rest rfl
    obtain ⟨digit, small, lowered⟩ := spells.exists_digit (by decide) mark (by simp)
    apply beyond digit small
    rcases marked with rfl | rfl <;> exact lowered.symm
  have natural : natural? 16 text = digits? 16 text := by
    rw [natural?]
    case x => exact fun rest _ => noMark 'x' (Or.inl rfl) rest
    case x_1 => exact fun rest _ => noMark 'X' (Or.inr rfl) rest
    all_goals simp
  rw [integer?_of_isAlphanumeric all, natural, digits?, if_neg (by simp),
    spells.digitsFrom? (by decide) (by decide)]
  rfl

end Integers

end Numeral

end Fieldbus
