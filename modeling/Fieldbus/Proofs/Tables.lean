import Fieldbus.Table
import Mathlib.Data.List.Basic
import Mathlib.Data.List.Induction

/-!
# Keys of tables

Which keys a table has, and what is left of it if one key is not seen.
-/

namespace Fieldbus

namespace Table

variable {κ α : Type} [DecidableEq κ]

/-- A table without one key. -/
def without (key : κ) (table : Table κ α) : Table κ α :=
  table.filter (·.1 ≠ key)

variable {key other : κ} {value : α} {table : Table κ α}

theorem without_cons (pair : κ × α) (rest : Table κ α) :
    without key (pair :: rest) =
      if pair.1 = key then without key rest else pair :: without key rest := by
  by_cases same : pair.1 = key
  · simp [without, same]
  · simp [without, same]

theorem without_put_self : (table.put key value).without key = table.without key := by
  induction table with
  | nil => simp [put, without]
  | cons pair rest ih =>
      by_cases same : pair.1 = key
      · simp [put, without_cons, same]
      · simp [put, without_cons, same, ih]

theorem without_put_of_ne (different : other ≠ key) :
    (table.put other value).without key = (table.without key).put other value := by
  induction table with
  | nil => simp [put, without, different]
  | cons pair rest ih =>
      by_cases same : pair.1 = other
      · simp [put, without_cons, same, different]
      · by_cases hidden : pair.1 = key
        · have apart : key ≠ other := Ne.symm different
          simp [put, without_cons, hidden, apart, ih]
        · simp [put, without_cons, same, hidden, ih]

theorem get?_without (different : other ≠ key) :
    (table.without key).get? other = table.get? other := by
  induction table with
  | nil => rfl
  | cons pair rest ih =>
      by_cases hidden : pair.1 = key
      · have apart : key ≠ other := Ne.symm different
        simp [get?, without_cons, hidden, ih, apart]
      · simp [get?, without_cons, hidden, ih]

/-- Tables that agree but for one key say the same of every other key. -/
theorem get?_eq_of_without {first second : Table κ α} (different : other ≠ key)
    (same : first.without key = second.without key) : first.get? other = second.get? other := by
  rw [← get?_without different, same, get?_without different]

theorem keys_without (table : Table κ α) :
    (table.without key).map Prod.fst = (table.map Prod.fst).filter (· ≠ key) := by
  rw [List.filter_map]
  rfl

theorem exists_of_mem_keys (member : key ∈ table.map Prod.fst) :
    ∃ value, table.get? key = some value := by
  induction table with
  | nil => cases member
  | cons pair rest ih =>
      by_cases same : pair.1 = key
      · exact ⟨pair.2, by rw [get?, if_pos same]⟩
      · rw [get?, if_neg same]
        rcases List.mem_cons.mp member with first | later
        · exact absurd first.symm same
        · exact ih later

theorem mem_keys_of_get? (found : table.get? key = some value) : key ∈ table.map Prod.fst := by
  induction table with
  | nil => cases found
  | cons pair rest ih =>
      rw [get?] at found
      by_cases same : pair.1 = key
      · exact List.mem_cons.mpr (Or.inl same.symm)
      · rw [if_neg same] at found
        exact List.mem_cons_of_mem _ (ih found)

theorem mem_of_get? (found : table.get? key = some value) : (key, value) ∈ table := by
  induction table with
  | nil => cases found
  | cons pair rest ih =>
      rw [get?] at found
      by_cases same : pair.1 = key
      · rw [if_pos same] at found
        rw [← same, ← Option.some.inj found]
        exact List.mem_cons_self
      · rw [if_neg same] at found
        exact List.mem_cons_of_mem _ (ih found)

theorem get?_of_mem (nodup : (table.map Prod.fst).Nodup) (member : (key, value) ∈ table) :
    table.get? key = some value := by
  induction table with
  | nil => cases member
  | cons pair rest ih =>
      rw [List.map_cons, List.nodup_cons] at nodup
      rw [get?]
      rcases List.mem_cons.mp member with rfl | later
      · rw [if_pos rfl]
      · have different : pair.1 ≠ key := by
          intro same
          apply nodup.1
          rw [same]
          exact List.mem_map.mpr ⟨_, later, rfl⟩
        rw [if_neg different]
        exact ih nodup.2 later

theorem get?_eq_none (missing : key ∉ table.map Prod.fst) : table.get? key = none := by
  cases found : table.get? key with
  | none => rfl
  | some value => exact absurd (mem_keys_of_get? found) missing

theorem mem_keys_put :
    other ∈ (table.put key value).map Prod.fst ↔ other = key ∨ other ∈ table.map Prod.fst := by
  induction table with
  | nil => simp [put]
  | cons pair rest ih =>
      by_cases same : pair.1 = key
      · simp [put, same]
      · simp only [put, if_neg same, List.map_cons, List.mem_cons, ih, or_left_comm]

theorem nodup_put (nodup : (table.map Prod.fst).Nodup) :
    ((table.put key value).map Prod.fst).Nodup := by
  induction table with
  | nil => simp [put]
  | cons pair rest ih =>
      obtain ⟨apart, later⟩ := List.nodup_cons.mp nodup
      by_cases same : pair.1 = key
      · rw [put, if_pos same]
        exact List.nodup_cons.mpr ⟨same ▸ apart, later⟩
      · rw [put, if_neg same]
        refine List.nodup_cons.mpr ⟨?_, ih later⟩
        rw [mem_keys_put]
        rintro (equal | member)
        · exact same equal
        · exact apart member

theorem keys_put (table : Table κ α) (key : κ) (value : α) :
    (table.put key value).map Prod.fst =
      if key ∈ table.map Prod.fst then table.map Prod.fst else table.map Prod.fst ++ [key] := by
  induction table with
  | nil => rfl
  | cons pair rest ih =>
      by_cases same : pair.1 = key
      · rw [put, if_pos same, if_pos (by simp [same])]
        simp [same]
      · rw [put, if_neg same, List.map_cons, ih, List.map_cons]
        by_cases known : key ∈ rest.map Prod.fst
        · rw [if_pos known, if_pos (List.mem_cons_of_mem _ known)]
        · have missing : key ∉ pair.1 :: rest.map Prod.fst := by
            simpa [Ne.symm same] using known
          rw [if_neg known, if_neg missing]
          rfl

theorem ofList_concat (pairs : List (κ × α)) (last : κ × α) :
    ofList (pairs ++ [last]) = (ofList pairs).put last.1 last.2 := by
  rw [ofList, List.foldl_concat]
  rfl

theorem keys_ofList (pairs : List (κ × α)) :
    (ofList pairs).map Prod.fst = (pairs.map Prod.fst).eraseDups := by
  induction pairs using List.reverseRecOn with
  | nil => rfl
  | append_singleton pairs last ih =>
      rw [ofList_concat, keys_put, ih, List.map_append, List.map_singleton, List.eraseDups_append]
      by_cases known : last.1 ∈ pairs.map Prod.fst
      · have nothing : [last.1].removeAll (pairs.map Prod.fst) = [] :=
          List.filter_eq_nil_iff.mpr (by simpa using known)
        rw [if_pos (List.mem_eraseDups.mpr known), nothing, List.eraseDups_nil, List.append_nil]
      · have all : [last.1].removeAll (pairs.map Prod.fst) = [last.1] :=
          List.filter_eq_self.mpr (by simpa using known)
        rw [if_neg (known ∘ List.mem_eraseDups.mp), all]
        rfl

theorem nodup_ofList (pairs : List (κ × α)) : ((ofList pairs).map Prod.fst).Nodup := by
  induction pairs using List.reverseRecOn with
  | nil => exact List.nodup_nil
  | append_singleton pairs last ih =>
      rw [ofList_concat]
      exact nodup_put ih

/-- What is found in a table is the last that was put under the key. -/
theorem get?_ofList_eq_some_iff {pairs : List (κ × α)} :
    (ofList pairs).get? key = some value ↔
      ∃ before later, pairs = before ++ (key, value) :: later ∧ ∀ other ∈ later, other.1 ≠ key := by
  induction pairs using List.reverseRecOn with
  | nil => simp [ofList, get?]
  | append_singleton pairs last ih =>
      rw [ofList_concat, get?_put]
      constructor
      · intro found
        split at found
        · rename_i same
          cases found
          exact ⟨pairs, [], by rw [← same], by simp⟩
        · rename_i different
          obtain ⟨before, later, rfl, others⟩ := ih.mp found
          refine ⟨before, later ++ [last], by simp, ?_⟩
          intro other member
          rcases List.mem_append.mp member with earlier | final
          · exact others other earlier
          · rwa [List.mem_singleton.mp final]
      · rintro ⟨before, later, order, others⟩
        rcases List.eq_nil_or_concat later with rfl | ⟨rest, final, rfl⟩
        · obtain ⟨rfl, same⟩ := List.append_inj' order rfl
          cases same
          rw [if_pos rfl]
        · rw [List.concat_eq_append, ← List.cons_append, ← List.append_assoc] at order
          obtain ⟨rfl, same⟩ := List.append_inj' order rfl
          cases same
          rw [if_neg (others last (by simp))]
          refine ih.mpr ⟨before, rest, rfl, ?_⟩
          intro other member
          exact others other (by simp [member])

end Table

end Fieldbus
