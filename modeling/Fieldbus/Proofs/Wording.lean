import Fieldbus.Wording

/-!
# What can be worded

A fault can be worded if the text can hold its numbers and its payload, and then it surfaces as
itself.  A fault without a payload that cannot be worded surfaces as a value that cannot be taken.
-/

namespace Fieldbus

namespace WritingLimits

variable {limits : WritingLimits} {first second value : Int}

theorem number?_eq_none_iff : limits.number? value = none ↔ limits.allows value = true := by
  simp [number?]

theorem allows_of_natAbs_le (smaller : first.natAbs ≤ second.natAbs)
    (allowed : limits.allows second = true) : limits.allows first = true := by
  rw [allows] at allowed ⊢
  cases digits : limits.digits with
  | none => rfl
  | some most =>
      simp only [digits, Option.all_some, decide_eq_true_eq] at allowed ⊢
      exact Nat.lt_of_le_of_lt smaller allowed

theorem allows_byteCount (positive : 0 < value) (allowed : limits.allows value = true) :
    limits.allows (byteCount value) = true := by
  apply allows_of_natAbs_le _ allowed
  rw [byteCount]
  omega

section Unlimited

@[simp]
theorem allows_unlimited (value : Int) : unlimited.allows value = true :=
  rfl

@[simp]
theorem reaches_unlimited (level : Nat) : unlimited.reaches level = true :=
  rfl

@[simp]
theorem number?_unlimited (value : Int) : unlimited.number? value = none :=
  rfl

mutual

@[simp]
theorem payload?_unlimited (level : Nat) (payload : Payload) :
    unlimited.payload? level payload = none := by
  cases payload with
  | list items => simp [payload?, items?_unlimited (level + 1) items]
  | record fields => simp [payload?, fields?_unlimited (level + 1) fields]
  | _ => simp [payload?]

theorem items?_unlimited (level : Nat) (items : List Payload) :
    unlimited.items? level items = none := by
  cases items with
  | nil => rfl
  | cons item rest => simp [items?, payload?_unlimited level item, items?_unlimited level rest]

theorem fields?_unlimited (level : Nat) (fields : List (Text × Payload)) :
    unlimited.fields? level fields = none := by
  cases fields with
  | nil => rfl
  | cons field rest =>
      obtain ⟨name, value⟩ := field
      simp [fields?, payload?_unlimited level value, fields?_unlimited level rest]

end

end Unlimited

end WritingLimits

namespace Fault

variable {limits : WritingLimits} {fault : Fault} {accident : Accident}

/-- Nothing is in the way of a fault exactly if its numbers and its payload can be written. -/
theorem obstacle?_eq_none_iff : fault.obstacle? limits = none ↔
    (∀ number ∈ fault.numbers, limits.allows number = true) ∧
      ∀ payload, fault.payload? = some payload → limits.payload? 0 payload = none := by
  simp [obstacle?, WritingLimits.number?_eq_none_iff]

/-- What is in the way of a fault without a payload is a number that is too long. -/
theorem obstacle?_eq_some_of_payload? (plain : fault.payload? = none)
    (hindered : fault.obstacle? limits = some accident) : accident = .value := by
  have found : fault.numbers.findSome? limits.number? = some accident := by
    simpa [obstacle?, plain] using hindered
  obtain ⟨number, _, tooLong⟩ := List.exists_of_findSome?_eq_some found
  rw [WritingLimits.number?] at tooLong
  split at tooLong
  · cases tooLong
  · cases tooLong
    rfl

/-- A size with one digit more than a text can hold cannot be told. -/
example : (codec (.bufferTooSmall (10 ^ Numeral.maxDecimalDigits) 1)).obstacle? (.standard 0) =
    some .value := by
  decide +kernel

theorem raised_of_none (free : fault.obstacle? limits = none) : fault.raised limits = fault := by
  rw [raised, free]

theorem raised_of_some (hindered : fault.obstacle? limits = some accident) :
    fault.raised limits = .accident accident := by
  rw [raised, hindered]

@[simp]
theorem obstacle?_unlimited (fault : Fault) : fault.obstacle? .unlimited = none := by
  rw [obstacle?_eq_none_iff]
  simp

/-- Without limits every fault surfaces as itself. -/
@[simp]
theorem raised_unlimited (fault : Fault) : fault.raised .unlimited = fault :=
  raised_of_none (obstacle?_unlimited fault)

end Fault

end Fieldbus
