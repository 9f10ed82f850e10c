import Mathlib.Data.List.Range
import Mathlib.Tactic.Linarith

/-!
# Round robin

A pick among `n` places goes around from a start and takes the first candidate (`pick`). It is the
candidate nearest to the start (`pick_eq_some`). When each pick starts behind the one before, no
place is picked twice while a candidate that was nearer is passed over (`pick_before`,
`behind_itself`).
-/

namespace RoundRobin

/-- The first candidate from a start, going around. -/
def pick (n start : Nat) (p : Nat → Bool) : Option Nat :=
  ((List.range n).map fun offset => (start + offset) % n).find? p

/-- The place behind a place. -/
def next (n i : Nat) : Nat := (i + 1) % n

/-- How far a place is from the start, going around. -/
def distance (n start i : Nat) : Nat := if start ≤ i then i - start else i + n - start

theorem wrap {a n : Nat} (h : a < 2 * n) : a % n = if a < n then a else a - n := by
  split
  · exact Nat.mod_eq_of_lt (by assumption)
  · rw [Nat.mod_eq_sub_mod (by omega), Nat.mod_eq_of_lt (by omega)]

theorem next_eq {n i : Nat} (h : i < n) : next n i = if i + 1 < n then i + 1 else 0 := by
  unfold next
  rw [wrap (by omega)]
  split <;> omega

theorem next_lt {n i : Nat} (h : i < n) : next n i < n := Nat.mod_lt _ (by omega)

section
variable {n start i j : Nat} {p : Nat → Bool}

section

variable (hstart : start < n)

include hstart

theorem distance_lt (hi : i < n) : distance n start i < n := by
  unfold distance
  split <;> omega

theorem add_distance (hi : i < n) : (start + distance n start i) % n = i := by
  have hlt := distance_lt hstart hi
  rw [wrap (by omega)]
  unfold distance
  split <;> split <;> omega

theorem distance_add {offset : Nat} (h : offset < n) :
    distance n start ((start + offset) % n) = offset := by
  rw [wrap (by omega)]
  unfold distance
  split <;> split <;> omega

/-- **A pick** is the candidate nearest to the start. -/
theorem pick_eq_some : pick n start p = some j ↔
      j < n ∧ p j = true ∧ ∀ i < n, p i = true → distance n start j ≤ distance n start i := by
  unfold pick
  rw [List.find?_map]
  simp only [Option.map_eq_some_iff, List.find?_range_eq_some, List.mem_range, Function.comp_apply]
  constructor
  · rintro ⟨offset, ⟨hp, hlt, hfirst⟩, rfl⟩
    refine ⟨Nat.mod_lt _ (by omega), hp, fun i hi hpi => ?_⟩
    rw [distance_add hstart hlt]
    by_contra hnear
    have hskipped := hfirst (distance n start i) (by omega)
    rw [add_distance hstart hi] at hskipped
    simp [hpi] at hskipped
  · rintro ⟨hj, hp, hnearest⟩
    refine ⟨distance n start j, ⟨?_, distance_lt hstart hj, fun offset hoffset => ?_⟩,
      add_distance hstart hj⟩
    · rwa [add_distance hstart hj]
    · have hlt := distance_lt hstart hj
      by_contra hcandidate
      have hle := hnearest ((start + offset) % n) (Nat.mod_lt _ (by omega))
        (by simpa using hcandidate)
      rw [distance_add hstart (by omega)] at hle
      omega

theorem pick_isSome : (pick n start p).isSome = true ↔ ∃ i < n, p i = true := by
  unfold pick
  rw [List.find?_isSome]
  constructor
  · rintro ⟨i, hmem, hp⟩
    obtain ⟨offset, -, rfl⟩ := List.mem_map.1 hmem
    exact ⟨_, Nat.mod_lt _ (by omega), hp⟩
  · rintro ⟨i, hi, hp⟩
    refine ⟨i, List.mem_map.2 ⟨distance n start i, ?_, add_distance hstart hi⟩, hp⟩
    exact List.mem_range.2 (distance_lt hstart hi)

/-! ## Turns -/

theorem distance_next (hi : i < n) (hj : j < n) (h : distance n start j < distance n start i) :
    distance n (next n j) i + distance n start j + 1 = distance n start i := by
  rw [next_eq hj]
  unfold distance at *
  split at h <;> split at h <;> split <;> split <;> omega

/-- **Nobody overtakes a candidate**: while `b` is a candidate nearer than `a`, a pick is not `a`,
and unless it is `b`, then `b` is still nearer behind it. -/
theorem pick_before {a b : Nat} (ha : a < n) (hb : b < n)
    (hnear : distance n start b < distance n start a) (hp : p b = true)
    (h : pick n start p = some j) :
    j ≠ a ∧ (j = b ∨ distance n (next n j) b < distance n (next n j) a) := by
  obtain ⟨hj, -, hnearest⟩ := (pick_eq_some hstart).1 h
  have hle := hnearest b hb hp
  refine ⟨?_, ?_⟩
  · rintro rfl
    omega
  · by_cases hjb : j = b
    · exact .inl hjb
    · have hne : distance n start j ≠ distance n start b := by
        intro heq
        apply hjb
        rw [← add_distance hstart hj, ← add_distance hstart hb, heq]
      have h1 := distance_next hstart hb hj (by omega)
      have h2 := distance_next hstart ha hj (by omega)
      exact .inr (by omega)

end

theorem behind_itself (hi : i < n) (hj : j < n) (hne : i ≠ j) :
    distance n (next n j) i < distance n (next n j) j := by
  rw [next_eq hj]
  unfold distance
  split <;> split <;> split <;> omega

end

end RoundRobin
