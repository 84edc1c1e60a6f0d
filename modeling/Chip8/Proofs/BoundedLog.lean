import Chip8.Proofs.History
import Chip8.Proofs.Serving

/-!
# `Chip8.Proofs.BoundedLog` — the trace is the end of a list

A trace is a ring: entries go into slots one after another, and once all slots are in use an entry takes the
place of the oldest. What is read is found by counting back from the next slot, around the end of the ring.
Beside it stands a list that grows with every entry and is emptied when the trace is cleared. Asked for
anything, with any limits, any number of times, the trace gives the answers of that list, of which it shows
the latest entries only, as many as there are slots.

## Contents
- **Requests.** `Request`, `Answer`, `Trace.respond`.
- **The list.** How many entries it shows (`shown`), and what it answers and becomes (`retrieve`).
- **Counting back.** `slot?_back`: the slots around the ring are the entries in order. `latest_eq_rtake`,
  `last?_eq_getLast?`.
- **One request.** `Keeps`: a trace holds the latest of a list. `Keeps.respond`.
- **Any requests.** `refines_boundedLog`.
-/

namespace Chip8

namespace Trace

/-! ## Requests -/

/-- What a trace can be asked to do or for, with limits that may be any whole numbers. -/
inductive Request where
  | record (e : Entry)
  | clear
  | size
  | entries (limit : Option Int)
  | last
  | lines (limit : Option Int)
  deriving DecidableEq, Repr

/-- What a request is answered with. -/
inductive Answer where
  /-- Something was written. -/
  | done
  | size (n : Nat)
  | entries (es : List Entry)
  | last (e : Option Entry)
  | lines (ls : List String)
  deriving DecidableEq, Repr

/-- Whether a request writes: the others only read. -/
def Request.writes : Request → Bool
  | .record _ | .clear => true
  | .size | .entries _ | .last | .lines _ => false

/-- The answer to a request, and the trace after it. -/
def respond (t : Trace) : Request → Answer × Trace
  | .record e => (.done, t.record e)
  | .clear => (.done, t.clear)
  | .size => (.size t.size, t)
  | .entries limit => (.entries (t.latest limit), t)
  | .last => (.last t.last?, t)
  | .lines limit => (.lines (t.lines limit), t)

/-! ## The list -/

/-- How many of the latest entries a list shows through `c` slots within a limit. -/
def shown (c : Nat) (log : List Entry) : Option Int → Nat
  | none => min c log.length
  | some limit => min (min c log.length) (max limit 0).toNat

/-- What a list of all entries answers to a request through `c` slots, and what it becomes. -/
def retrieve (c : Nat) (log : List Entry) : Request → Answer × List Entry
  | .record e => (.done, log ++ [e])
  | .clear => (.done, [])
  | .size => (.size (min c log.length), log)
  | .entries limit => (.entries (log.rtake (shown c log limit)), log)
  | .last => (.last log.getLast?, log)
  | .lines limit => (.lines ((log.rtake (shown c log limit)).map Entry.line), log)

/-! ## Counting back -/

variable {t : Trace} {c : Nat} {log : List Entry}

/-- The last element is among the latest. -/
theorem getLast?_rtake {α : Type} (l : List α) {n : Nat} (hn : 0 < n) :
    (l.rtake n).getLast? = l.getLast? := by
  obtain ⟨k, rfl⟩ := Nat.exists_eq_succ_of_ne_zero (Nat.ne_of_gt hn)
  induction l using List.reverseRecOn with
  | nil => rw [List.rtake_nil]
  | append_singleton l a _ => rw [List.rtake_concat_succ, List.getLast?_concat, List.getLast?_concat]

/-- A list is put together again from its places. -/
theorem filterMap_range_getElem? {α : Type} (l : List α) :
    (List.range l.length).filterMap (fun k => l[k]?) = l := by
  induction l using List.reverseRecOn with
  | nil => rfl
  | append_singleton l a ih =>
    have hbefore : (List.range l.length).filterMap (fun k => (l ++ [a])[k]?)
        = (List.range l.length).filterMap (fun k => l[k]?) := by
      apply List.filterMap_congr
      intro k hk
      exact List.getElem?_append_left (List.mem_range.mp hk)
    rw [List.length_append, List.length_singleton, List.range_succ, List.filterMap_append, hbefore, ih]
    simp

/-- As long as not all slots are in use they are in order; then the next one holds the oldest entry. -/
theorem getElem?_toList (t : Trace) {k : Nat} (hk : k < t.size) :
    t.toList[k]? = t.slots[if k < t.size - t.next then t.next + k else k - (t.size - t.next)]? := by
  have hsize : t.slots.toList.length = t.size := rfl
  rw [toList, List.getElem?_append, List.length_drop, hsize]
  split
  · rw [List.getElem?_drop, Array.getElem?_toList]
  · rw [List.getElem?_take_of_lt (by omega), Array.getElem?_toList]

/-- **Around the ring the slots are in order.** The slot that is so many places before the next one holds the
entry that is as many places from the end, whether the ring has closed or not. -/
theorem slot?_back (t : Trace) {back : Nat} (hpos : 0 < back) (hback : back ≤ t.size) :
    t.slot? (-back) = t.toList[t.size - back]? := by
  have hnext := t.next_lt
  have hsize : t.size ≤ t.capacity := t.size_le
  have hopen : t.size < t.capacity → t.next = t.size := t.next_eq_of_lt
  rw [slot?, t.getElem?_toList (by omega)]
  congr 1
  by_cases hbefore : back ≤ t.next
  · have hplace : ((t.next + -back : Int) % t.capacity).toNat = t.next - back := by
      rw [Int.emod_eq_of_lt (by omega) (by omega)]
      omega
    rw [hplace]
    split <;> omega
  · -- The count goes past the first slot, so all are in use.
    have hplace : ((t.next + -back : Int) % t.capacity).toNat = t.next + t.capacity - back := by
      rw [← Int.add_emod_right, Int.emod_eq_of_lt (by omega) (by omega)]
      omega
    rw [hplace]
    split <;> omega

theorem within_le_size (t : Trace) (limit : Option Int) : t.within limit ≤ t.size := by
  cases limit with
  | none => exact Nat.le_refl _
  | some n => exact Nat.min_le_left _ _

/-- What is read within a limit are the latest entries. -/
theorem latest_eq_rtake (t : Trace) (limit : Option Int) :
    t.latest limit = t.toList.rtake (t.within limit) := by
  have hwithin := t.within_le_size limit
  have hlength : (t.toList.rtake (t.within limit)).length = t.within limit := by
    rw [length_rtake, length_toList, Nat.min_eq_left hwithin]
  conv_rhs => rw [← filterMap_range_getElem? (t.toList.rtake (t.within limit)), hlength]
  apply List.filterMap_congr
  intro k hk
  have hlt := List.mem_range.mp hk
  have hback : (k - t.within limit : Int) = -((t.within limit - k : Nat) : Int) := by omega
  rw [hback, t.slot?_back (by omega) (by omega), List.rtake, List.getElem?_drop, length_toList]
  congr 1
  omega

/-- What is read in the slot before the next one is the last entry. -/
theorem last?_eq_getLast? (t : Trace) : t.last? = t.toList.getLast? := by
  rw [last?, List.getLast?_eq_getElem?, length_toList]
  split
  · next hnone =>
    rw [List.getElem?_eq_none (by rw [length_toList]; omega)]
  · next hsome => exact t.slot?_back Nat.one_pos (Nat.pos_of_ne_zero hsome)

/-! ## One request -/

/-- A trace has `c` slots and holds the latest of a list. -/
structure Keeps (t : Trace) (c : Nat) (log : List Entry) : Prop where
  capacity : t.capacity = c
  entries : t.toList = log.rtake c

namespace Keeps

theorem empty (hc : 0 < c) : (empty c hc).Keeps c [] where
  capacity := rfl
  entries := by rw [List.rtake_nil, toList_empty]

theorem size (hk : t.Keeps c log) : t.size = min c log.length := by
  rw [← t.length_toList, hk.entries, length_rtake]

theorem record (hk : t.Keeps c log) (e : Entry) : (t.record e).Keeps c (log ++ [e]) where
  capacity := (t.capacity_record e).trans hk.capacity
  entries := by rw [t.toList_record_eq_rtake, hk.entries, hk.capacity, rtake_concat_rtake]

theorem clear (hk : t.Keeps c log) : t.clear.Keeps c [] where
  capacity := hk.capacity
  entries := by rw [List.rtake_nil, toList_clear]

/-- What is read within a limit is what the list shows. -/
theorem latest (hk : t.Keeps c log) (limit : Option Int) :
    t.latest limit = log.rtake (shown c log limit) := by
  have hwithin : min c (t.within limit) = shown c log limit := by
    cases limit with
    | none =>
      rw [within, shown, hk.size]
      omega
    | some n =>
      rw [within, shown, hk.size]
      omega
  rw [latest_eq_rtake, hk.entries, rtake_rtake, hwithin]

theorem last (hk : t.Keeps c log) : t.last? = log.getLast? := by
  have hc : 0 < c := hk.capacity ▸ t.capacity_pos
  rw [last?_eq_getLast?, hk.entries, getLast?_rtake log hc]

/-- **A trace answers a request as the list does**, and holds the latest of what the list becomes. -/
theorem respond (hk : t.Keeps c log) (r : Request) :
    (t.respond r).1 = (retrieve c log r).1 ∧ (t.respond r).2.Keeps c (retrieve c log r).2 := by
  cases r with
  | record e => exact ⟨rfl, hk.record e⟩
  | clear => exact ⟨rfl, hk.clear⟩
  | size => exact ⟨congrArg Answer.size hk.size, hk⟩
  | entries limit => exact ⟨congrArg Answer.entries (hk.latest limit), hk⟩
  | last => exact ⟨congrArg Answer.last hk.last, hk⟩
  | lines limit =>
    refine ⟨?_, hk⟩
    show Answer.lines ((t.latest limit).map Entry.line) = _
    rw [hk.latest limit]
    rfl

end Keeps

/-! ## Any requests -/

/-- What a trace of `c` slots answers to requests, and what they leave of it. -/
def served (c : Nat) (hc : 0 < c) (requests : List Request) : List Answer × Trace :=
  serve respond (empty c hc) requests

/-- What a list that starts empty answers to requests through `c` slots, and what they leave of it. -/
def retrieved (c : Nat) (requests : List Request) : List Answer × List Entry :=
  serve (retrieve c) [] requests

/-- Only the requests that write count for what is left of a trace. -/
theorem serve_writes (t : Trace) (requests : List Request) :
    (serve respond t requests).2 = (serve respond t (requests.filter Request.writes)).2 := by
  have hreads (t : Trace) (r : Request) (hwrites : r.writes = false) : (t.respond r).2 = t := by
    cases r with
    | record _ | clear => cases hwrites
    | size | entries _ | last | lines _ => rfl
  exact serve_filter hreads t requests

/-- **A trace is a list of which the latest entries are kept.** A trace of any capacity, asked for anything
with any limits, any number of times, gives the answers of a list that grows with each entry and is emptied
when the trace is cleared: of the entries in it the trace counts, shows and writes out as lines the latest
ones, in order, as many as there are slots and the limit allows, and its last entry is that of the list.
Reading changes nothing: what is left is the same when the trace is not read. -/
theorem refines_boundedLog [Room] (c : Nat) (hc : 0 < c) (requests : List Request) :
    (reserve 8 c = .ok () → create c = .ok (empty c hc))
      ∧ (served c hc requests).1 = (retrieved c requests).1
      ∧ (served c hc requests).2.Keeps c (retrieved c requests).2
      ∧ (served c hc requests).2 = (served c hc (requests.filter Request.writes)).2 := by
  have hstep (t : Trace) (log : List Entry) (r : Request) (hk : t.Keeps c log) := hk.respond r
  obtain ⟨hanswers, hkeeps⟩ := serve_related hstep requests (Keeps.empty hc)
  refine ⟨fun hroom => ?_, hanswers, hkeeps, serve_writes (empty c hc) requests⟩
  rw [create, dif_pos (Int.natCast_pos.mpr hc), hroom]
  rfl

/-- The entry of a step at an address of a program that clears the screen again and again. -/
def clearingAt (pc : UInt16) : Entry :=
  ⟨pc, some 0x00E0, "CLS", 0, 0, List.replicate 16 0, 0, 0, ""⟩

/-- Two slots that three entries go into, with limits below zero, below the size and above it. -/
theorem refines_boundedLog_wrapped :
    0 < 2
      ∧ (served 2 (by decide) [.last, .record (clearingAt 0x200), .entries none,
          .record (clearingAt 0x202), .record (clearingAt 0x204), .size, .entries (some 5),
          .entries (some 1), .entries (some (-1)), .last, .lines (some 1), .clear, .entries none]).1
        = [.last none, .done, .entries [clearingAt 0x200], .done, .done, .size 2,
          .entries [clearingAt 0x202, clearingAt 0x204], .entries [clearingAt 0x204], .entries [],
          .last (some (clearingAt 0x204)), .lines [(clearingAt 0x204).line], .done, .entries []] :=
  ⟨by decide, (@refines_boundedLog .ample 2 (by decide) _).2.1.trans rfl⟩

end Trace

end Chip8
