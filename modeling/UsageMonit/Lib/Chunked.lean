import Mathlib.Data.List.Basic

/-!
# Sequences in chunks

A sequence stored as chunks of `k` entries: every chunk is full but the last, which is not empty
(`Packed`). An entry is found by dividing its index (`lookup_eq`), a new entry goes into the last
chunk, after an empty chunk was added when all are full (`Packed.push`), and an entry can change
in place (`Packed.modify`).
-/

namespace Chunked

variable {α : Type*} {k : Nat}

/-- Chunks of `k` entries, of which only the last may be shorter. -/
inductive Packed (k : Nat) : List (List α) → Prop
  | nil : Packed k []
  | last {chunk : List α} : chunk ≠ [] → chunk.length ≤ k → Packed k [chunk]
  | cons {chunk : List α} {chunks : List (List α)} :
      chunk.length = k → chunks ≠ [] → Packed k chunks → Packed k (chunk :: chunks)

/-- The entry at an index, in the chunk and at the place that the index names. -/
def lookup (k : Nat) (chunks : List (List α)) (i : Nat) : Option α :=
  chunks[i / k]?.bind fun chunk => chunk[i % k]?

/-- The chunks an entry is pushed into: a new one is opened when the last is full. -/
def opened (k len : Nat) (chunks : List (List α)) : List (List α) :=
  if len % k = 0 then chunks ++ [[]] else chunks

/-- An entry at the end of the last chunk, unless there is none. -/
def pushLast (chunks : List (List α)) (a : α) : Option (List (List α)) :=
  chunks.getLast?.map fun chunk => chunks.dropLast ++ [chunk ++ [a]]

def modify (k : Nat) (chunks : List (List α)) (i : Nat) (f : α → α) : List (List α) :=
  chunks.modify (i / k) fun chunk => chunk.modify (i % k) f

theorem pushLast_append (init : List (List α)) (chunk : List α) (a : α) :
    pushLast (init ++ [chunk]) a = some (init ++ [chunk ++ [a]]) := by
  simp [pushLast]

theorem map_length_modify (chunks : List (List α)) (i : Nat) (f : α → α) :
    (modify k chunks i f).map List.length = chunks.map List.length := by
  apply List.ext_getElem (by simp [modify])
  intro j _ _
  by_cases hj : i / k = j <;> simp [modify, hj]

theorem length_flatten_modify (chunks : List (List α)) (i : Nat) (f : α → α) :
    (modify k chunks i f).flatten.length = chunks.flatten.length := by
  rw [List.length_flatten, List.length_flatten, map_length_modify]

namespace Packed

variable {chunks : List (List α)}

/-! ## Lookups -/

section

variable (h : Packed k chunks)

include h

theorem lookup_eq (hk : 0 < k) (i : Nat) : lookup k chunks i = chunks.flatten[i]? := by
  induction h generalizing i with
  | nil => simp [lookup]
  | @last chunk hne hle =>
    rcases Nat.lt_or_ge i k with hi | hi
    · simp [lookup, Nat.div_eq_of_lt hi, Nat.mod_eq_of_lt hi]
    · have hdiv : 0 < i / k := Nat.div_pos hi hk
      have hnone : chunk[i]? = none := List.getElem?_eq_none (by omega)
      simp [lookup, hnone, Nat.ne_of_gt hdiv]
  | @cons chunk chunks hlen hne hrest ih =>
    rcases Nat.lt_or_ge i k with hi | hi
    · have hlt : i < chunk.length := by omega
      simp [lookup, Nat.div_eq_of_lt hi, Nat.mod_eq_of_lt hi, List.getElem?_append_left hlt]
    · obtain ⟨j, rfl⟩ : ∃ j, i = j + k := ⟨i - k, by omega⟩
      have hj := ih j
      rw [List.flatten_cons, List.getElem?_append_right (by omega), hlen, Nat.add_sub_cancel,
        ← hj, lookup, lookup, Nat.add_div_right _ hk, Nat.add_mod_right]
      rfl

/-! ## Pushes -/

theorem append_new (hk : 0 < k) (hfull : chunks.flatten.length % k = 0)
    (a : α) : Packed k (chunks ++ [[a]]) := by
  induction h with
  | nil => exact .last (by simp) hk
  | @last chunk hne hle =>
    have hpos : 0 < chunk.length := List.length_pos_iff.2 hne
    have hlen : chunk.length = k := by
      rcases Nat.lt_or_ge chunk.length k with hlt | hge
      · rw [List.flatten_singleton, Nat.mod_eq_of_lt hlt] at hfull
        omega
      · omega
    exact .cons hlen (by simp) (.last (by simp) hk)
  | @cons chunk chunks hlen hne hrest ih =>
    refine .cons hlen (by simp) (ih ?_)
    rw [List.flatten_cons, List.length_append, hlen, Nat.add_mod_left] at hfull
    exact hfull

theorem append_last (hroom : chunks.flatten.length % k ≠ 0) (a : α) :
    ∃ init chunk, chunks = init ++ [chunk] ∧ Packed k (init ++ [chunk ++ [a]]) := by
  induction h with
  | nil => simp at hroom
  | @last chunk hne hle =>
    refine ⟨[], chunk, rfl, .last (by simp) ?_⟩
    have hlt : chunk.length ≠ k := by
      intro hlen
      simp [hlen] at hroom
    rw [List.length_append, List.length_singleton]
    omega
  | @cons chunk chunks hlen hne hrest ih =>
    rw [List.flatten_cons, List.length_append, hlen, Nat.add_mod_left] at hroom
    obtain ⟨init, d, rfl, hpacked⟩ := ih hroom
    exact ⟨chunk :: init, d, rfl, .cons hlen (by simp) hpacked⟩

/-- **Push**: there is a last chunk to push into, and the chunks stay packed. -/
theorem push (hk : 0 < k) (a : α) :
    ∃ chunks', pushLast (opened k chunks.flatten.length chunks) a = some chunks' ∧
      Packed k chunks' ∧ chunks'.flatten = chunks.flatten ++ [a] := by
  by_cases hfull : chunks.flatten.length % k = 0
  · refine ⟨chunks ++ [[a]], ?_, h.append_new hk hfull a, by simp⟩
    rw [opened, if_pos hfull, pushLast_append]
    rfl
  · obtain ⟨init, chunk, rfl, hpacked⟩ := h.append_last hfull a
    refine ⟨init ++ [chunk ++ [a]], ?_, hpacked, by simp⟩
    rw [opened, if_neg hfull, pushLast_append]

/-! ## Changes in place -/

theorem map_length {chunks' : List (List α)}
    (hlen : chunks'.map List.length = chunks.map List.length) : Packed k chunks' := by
  induction h generalizing chunks' with
  | nil =>
    obtain rfl : chunks' = [] := by simpa using hlen
    exact .nil
  | @last chunk hne hle =>
    obtain ⟨chunk', rfl, hc⟩ : ∃ chunk', chunks' = [chunk'] ∧
        chunk'.length = chunk.length := by
      simpa [List.map_eq_cons_iff] using hlen
    refine .last ?_ (by omega)
    rintro rfl
    exact hne (List.length_eq_zero_iff.1 hc.symm)
  | @cons chunk chunks hc hne hrest ih =>
    obtain ⟨chunk', rest, rfl, hc', hrest'⟩ := List.map_eq_cons_iff.1 hlen
    refine .cons (hc'.trans hc) ?_ (ih hrest')
    rintro rfl
    exact hne (by simpa using hrest'.symm)

theorem modify (i : Nat) (f : α → α) : Packed k (Chunked.modify k chunks i f) :=
  h.map_length (map_length_modify chunks i f)

end

end Packed

end Chunked
