import UsageMonit.Lib.Chunked
import UsageMonit.Lib.Outcome
import UsageMonit.Rollout.Event

/-!
# Parsed events in chunks (`rollout/parsed_events.rs`)

The events of a parsed file are kept in chunks of 256, so that files can share a prefix. An index
that the chunks do not hold is a panic. The module hands out only sequences that it built, and
these are well formed: their chunks are packed and hold as many events as the length says.
-/

namespace Rollout

open Chunked Fallible

/-- How a function can panic. -/
inductive Panic
  | slice
  | index
  | expect (message : String)
  | unreachable (message : String)
  | dateOverflow
deriving DecidableEq

def chunkEvents : Nat := 256

structure ParsedEvents where
  chunks : List (List ParsedEvent)
  len : Nat
deriving DecidableEq

namespace ParsedEvents

/-- `ParsedEvents::default`. -/
def new : ParsedEvents := ⟨[], 0⟩

structure WellFormed (events : ParsedEvents) : Prop where
  packed : Packed chunkEvents events.chunks
  len_eq : events.len = events.chunks.flatten.length

/-- The events as one sequence. -/
def toList (events : ParsedEvents) : List ParsedEvent := events.chunks.flatten

def push (events : ParsedEvents) (event : ParsedEvent) : Except Panic ParsedEvents :=
  match pushLast (opened chunkEvents events.len events.chunks) event with
  | none => .error (.expect "push creates its chunk")
  | some chunks => .ok ⟨chunks, events.len + 1⟩

/-- The event that the iterator reads at an index. -/
def index (events : ParsedEvents) (i : Nat) : Except Panic ParsedEvent :=
  match lookup chunkEvents events.chunks i with
  | none => .error .index
  | some event => .ok event

def iter (events : ParsedEvents) : Except Panic (List ParsedEvent) :=
  (List.range events.len).mapM events.index

/-- The event that `get_mut` refers to. -/
def getMut (events : ParsedEvents) (i : Nat) : Except Panic (Option ParsedEvent) :=
  if i ≥ events.len then .ok none
  else
    match events.chunks[i / chunkEvents]? with
    | none => .error .index
    | some chunk => .ok chunk[i % chunkEvents]?

/-- A write through the reference of `get_mut`. -/
def write (events : ParsedEvents) (i : Nat) (event : ParsedEvent) : ParsedEvents :=
  { events with chunks := modify chunkEvents events.chunks i fun _ => event }

/-! ## Well-formed sequences -/

theorem chunkEvents_pos : 0 < chunkEvents := by decide

theorem wellFormed_new : new.WellFormed := ⟨.nil, rfl⟩

namespace WellFormed

variable {events : ParsedEvents} {D : Panic → Prop}

section

variable (h : events.WellFormed)

include h

theorem push (event : ParsedEvent) : Yields (events.push event) D WellFormed := by
  obtain ⟨chunks', hpush, hpacked, hflat⟩ := h.packed.push chunkEvents_pos event
  rw [ParsedEvents.push, h.len_eq, hpush]
  refine yields_ok ⟨hpacked, ?_⟩
  rw [hflat, List.length_append]
  rfl

theorem index {i : Nat} (hi : i < events.len) :
    Yields (events.index i) D fun event => events.toList[i]? = some event := by
  have hlt : i < events.toList.length := by
    rw [toList, ← h.len_eq]
    exact hi
  have hlookup : lookup chunkEvents events.chunks i = some events.toList[i] := by
    rw [h.packed.lookup_eq chunkEvents_pos i]
    exact List.getElem?_eq_getElem hlt
  rw [ParsedEvents.index, hlookup]
  exact yields_ok (List.getElem?_eq_getElem hlt)

theorem iter : Yields events.iter D (· = events.toList) := by
  refine (yields_mapM fun i hi => h.index (List.mem_range.1 hi)).mono (fun _ => id) ?_
  intro read hread
  have hlen : events.len = events.toList.length := h.len_eq
  obtain ⟨hlen', hget⟩ := List.forall₂_iff_get.1 hread
  rw [List.length_range] at hlen'
  apply List.ext_getElem (by omega)
  intro i hi hi'
  have := hget i (by rw [List.length_range]; omega) hi
  simpa [hi'] using this.symm

theorem getMut {i : Nat} (hi : i < events.len) :
    Yields (events.getMut i) D fun event => ∃ e, event = some e ∧ events.index i = .ok e := by
  obtain ⟨e, he, -⟩ | ⟨_, -, hfalse⟩ := (h.index (D := fun _ => False) hi).cases
  · have hread := he
    unfold ParsedEvents.index lookup at he
    rw [ParsedEvents.getMut, if_neg (by omega)]
    cases hchunk : events.chunks[i / chunkEvents]? with
    | none => simp [hchunk] at he
    | some chunk =>
      cases hevent : chunk[i % chunkEvents]? with
      | none => simp [hchunk, hevent] at he
      | some e' =>
        obtain rfl : e' = e := by simpa [hchunk, hevent] using he
        exact yields_ok ⟨e', hevent, hread⟩
  · exact hfalse.elim

theorem write (i : Nat) (event : ParsedEvent) : (events.write i event).WellFormed := by
  refine ⟨h.packed.modify i _, ?_⟩
  rw [ParsedEvents.write, length_flatten_modify]
  exact h.len_eq

end

end WellFormed

end ParsedEvents

end Rollout
