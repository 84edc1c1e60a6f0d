import Chip8.Proofs.Atomic
import Chip8.Proofs.Execution
import Chip8.Proofs.Serving

/-!
# `Chip8.Proofs.BoundedStack` — the call stack is a bounded list

A stack is a row of slots and a pointer, which is at once the number of live addresses, the slot that the
next address goes into and the one above the slot that is read. A return lowers it and leaves its address
where it was. Beside the stack stands a list that has no slots and nothing above its end: addresses are added
to it and taken from it at one end, up to a fixed number. Asked for anything, any number of times, whichever
requests are refused, the stack gives the answers of that list.

## Contents
- **Requests.** `Request`, `Answer`, `CallStack.respond`.
- **The list.** `AddressList depth`: at most `depth` addresses. What it answers and becomes (`respond`), and
  exactly what it refuses (`respond_eq_error_iff`).
- **One request.** `Holds`: the live addresses of a stack are those of a list. `Holds.respond`, and
  `respond_refused` for the stack that is left by a refusal.
- **Dead slots.** `serve_of_live`: stacks with the same live addresses give the same answers for ever.
- **Any requests.** `refines_addressList`.
-/

namespace Chip8

namespace CallStack

/-! ## Requests -/

/-- What a stack can be asked to do or for, with addresses that may be any whole numbers. -/
inductive Request where
  | push (address : Int)
  | pop
  | peek
  | reset
  | snapshot
  deriving DecidableEq, Repr

/-- What a request is answered with. -/
inductive Answer where
  /-- The stack was changed, and there is nothing to tell. -/
  | done
  | taken (address : Nat)
  | latest (address : Option Nat)
  | live (addresses : List Nat)
  deriving DecidableEq, Repr

/-- An update is answered with what it gives or why it fails, and leaves what it leaves. -/
def answerUpdate {α : Type} (s : CallStack) (answer : α → Answer) (u : Update Fault CallStack α) :
    Except Fault Answer × CallStack :=
  match u.run s with
  | .ok a t => (.ok (answer a), t)
  | .error e t => (.error e, t)

/-- The answer to a request, or why it is refused, and the stack after it. -/
def respond (s : CallStack) : Request → Except Fault Answer × CallStack
  | .push address => s.answerUpdate (fun _ => .done) (push address)
  | .pop => s.answerUpdate (fun a => .taken a.toNat) pop
  | .peek => (.ok (.latest (s.peek.map UInt16.toNat)), s)
  | .reset => (.ok .done, s.reset)
  | .snapshot => (.ok (.live (s.toList.map UInt16.toNat)), s)

end CallStack

/-! ## The list -/

open CallStack (Request Answer)

/-- At most `depth` addresses, the oldest first. -/
structure AddressList (depth : Nat) where
  addresses : List Nat
  length_le : addresses.length ≤ depth

namespace AddressList

variable {depth : Nat}

/-- A list without addresses. -/
def nil : AddressList depth := ⟨[], Nat.zero_le depth⟩

/-- The list with one more address, of which the low sixteen bits are kept. -/
def concat (l : AddressList depth) (h : l.addresses.length < depth) (address : Int) :
    AddressList depth where
  addresses := l.addresses ++ [(address % 0x10000).toNat]
  length_le := by
    rw [List.length_append, List.length_singleton]
    exact h

/-- The list without its last address. -/
def dropLast (l : AddressList depth) : AddressList depth where
  addresses := l.addresses.dropLast
  length_le := by
    rw [List.length_dropLast]
    exact Nat.le_trans (Nat.sub_le _ _) l.length_le

/-- A list answers a request or refuses it, and stays as it is when it refuses. -/
def respond (l : AddressList depth) : Request → Except Fault Answer × AddressList depth
  | .push address =>
    if h : l.addresses.length < depth then (.ok .done, l.concat h address)
    else (.error (.stackOverflow depth), l)
  | .pop =>
    match l.addresses.getLast? with
    | some a => (.ok (.taken a), l.dropLast)
    | none => (.error .stackUnderflow, l)
  | .peek => (.ok (.latest l.addresses.getLast?), l)
  | .reset => (.ok .done, nil)
  | .snapshot => (.ok (.live l.addresses), l)

/-- A full list refuses another address, an empty one has none to give, and nothing else is refused. -/
theorem respond_eq_error_iff {l : AddressList depth} {r : Request} {e : Fault} :
    (l.respond r).1 = .error e
      ↔ (∃ address, r = .push address) ∧ l.addresses.length = depth ∧ e = .stackOverflow depth
        ∨ r = .pop ∧ l.addresses = [] ∧ e = .stackUnderflow := by
  have hle := l.length_le
  cases r with
  | push address =>
    rw [respond]
    by_cases hlt : l.addresses.length < depth
    · rw [dif_pos hlt]
      simp only [reduceCtorEq, false_and, or_false, false_iff, not_and]
      intro _ hfull
      omega
    · have hfull : l.addresses.length = depth := by omega
      rw [dif_neg hlt]
      simp [hfull, eq_comm]
  | pop =>
    rw [respond]
    cases hlast : l.addresses.getLast? with
    | none => simp [List.getLast?_eq_none_iff.mp hlast, eq_comm]
    | some a =>
      have hne : l.addresses ≠ [] := by
        intro hnil
        rw [hnil] at hlast
        cases hlast
      simp [hne]
  | peek | reset | snapshot => simp [respond]

end AddressList

namespace CallStack

variable {s t : CallStack} {depth : Nat} {l : AddressList depth}

/-! ## One request -/

/-- A stack has `depth` slots, and its live addresses are those of a list. Nothing is said of the slots that
are not live. -/
structure Holds (s : CallStack) (l : AddressList depth) : Prop where
  depth_eq : s.depth = depth
  live : s.toList.map UInt16.toNat = l.addresses

namespace Holds

theorem empty (h : 0 < depth) : (empty depth h).Holds (.nil : AddressList depth) where
  depth_eq := depth_empty depth h
  live := by
    rw [toList_empty]
    rfl

theorem reset (h : s.Holds l) : s.reset.Holds (.nil : AddressList depth) where
  depth_eq := s.depth_reset.trans h.depth_eq
  live := by
    rw [toList_reset]
    rfl

/-- The pointer counts the addresses of the list. -/
theorem pointer (h : s.Holds l) : s.pointer = l.addresses.length := by
  rw [← h.live, List.length_map, length_toList]

theorem peek (h : s.Holds l) : s.peek.map UInt16.toNat = l.addresses.getLast? := by
  rw [peek_eq_getLast?, ← h.live, List.getLast?_map]

theorem pointer_eq_zero_iff (h : s.Holds l) : s.pointer = 0 ↔ l.addresses = [] := by
  rw [h.pointer, List.length_eq_zero_iff]

theorem place (h : s.Holds l) (hroom : s.pointer < s.depth) (hlength : l.addresses.length < depth)
    (address : Int) : (s.place hroom (UInt16.ofInt address)).Holds (l.concat hlength address) where
  depth_eq := (s.depth_place hroom _).trans h.depth_eq
  live := by
    have hkept : (UInt16.ofInt address).toNat = (address % 0x10000).toNat := by
      show _ = (Core.wrapped address).toNat
      rw [← Core.toNat_ofInt, Int.toNat_natCast]
    rw [toList_place, List.map_append, List.map_singleton, h.live, hkept]
    rfl

/-- The slot that the pointer comes down to holds the last address of the list. -/
theorem lower (h : s.Holds l) (hlive : s.pointer ≠ 0) :
    l.addresses.getLast? = some s.lower.top.toNat ∧ s.lower.Holds l.dropLast := by
  have hsplit : l.addresses = s.lower.toList.map UInt16.toNat ++ [s.lower.top.toNat] := by
    rw [← h.live, toList_lower hlive, List.map_append, List.map_singleton]
  refine ⟨?_, s.depth_lower.trans h.depth_eq, ?_⟩
  · rw [hsplit, List.getLast?_concat]
  · show _ = l.addresses.dropLast
    rw [hsplit, List.dropLast_concat]

/-- A push is answered as by the list: it is refused if all slots are live. -/
theorem respond_push (h : s.Holds l) (address : Int) :
    (s.respond (.push address)).1 = (l.respond (.push address)).1
      ∧ (s.respond (.push address)).2.Holds (l.respond (.push address)).2 := by
  -- The pointer counts as the list does, so that both are full at once.
  have hroom : s.pointer < s.depth ↔ l.addresses.length < depth := by
    rw [h.pointer, h.depth_eq]
  rw [respond, answerUpdate, run_push, AddressList.respond]
  by_cases hlt : l.addresses.length < depth
  · rw [dif_pos (hroom.mpr hlt), dif_pos hlt]
    exact ⟨rfl, h.place (hroom.mpr hlt) hlt address⟩
  · rw [dif_neg (mt hroom.mp hlt), dif_neg hlt, h.depth_eq]
    exact ⟨rfl, h⟩

/-- A pop is answered as by the list: it is refused if no slot is live. -/
theorem respond_pop (h : s.Holds l) :
    (s.respond .pop).1 = (l.respond .pop).1 ∧ (s.respond .pop).2.Holds (l.respond .pop).2 := by
  rw [respond, answerUpdate, run_pop, AddressList.respond]
  by_cases hempty : s.pointer = 0
  · rw [if_pos hempty, h.pointer_eq_zero_iff.mp hempty]
    exact ⟨rfl, h⟩
  · obtain ⟨hlast, hlower⟩ := h.lower hempty
    rw [if_neg hempty, hlast]
    exact ⟨rfl, hlower⟩

/-- **A stack answers a request as the list does**, and holds what the list becomes. -/
theorem respond (h : s.Holds l) (r : Request) :
    (s.respond r).1 = (l.respond r).1 ∧ (s.respond r).2.Holds (l.respond r).2 := by
  cases r with
  | push address => exact h.respond_push address
  | pop => exact h.respond_pop
  | peek => exact ⟨congrArg (fun a => Except.ok (Answer.latest a)) h.peek, h⟩
  | reset => exact ⟨rfl, h.reset⟩
  | snapshot => exact ⟨congrArg (fun as => Except.ok (Answer.live as)) h.live, h⟩

/-- Any requests are answered as by the list. -/
theorem serve (h : s.Holds l) (requests : List Request) :
    (serve CallStack.respond s requests).1 = (serve AddressList.respond l requests).1
      ∧ (serve CallStack.respond s requests).2.Holds (serve AddressList.respond l requests).2 := by
  have hstep (s : CallStack) (l : AddressList depth) (r : Request) (hs : s.Holds l) := hs.respond r
  exact serve_related hstep requests h

end Holds

/-- An atomic update that fails is answered from a stack that stays as it was. -/
theorem answerUpdate_refused {α : Type} {u : Update Fault CallStack α} {answer : α → Answer} {e : Fault}
    (hu : Update.Atomic u) (h : (s.answerUpdate answer u).1 = .error e) :
    (s.answerUpdate answer u).2 = s := by
  unfold answerUpdate at h ⊢
  cases hrun : u.run s with
  | ok a t =>
    rw [hrun] at h
    cases h
  | error e' t => exact hu s e' t hrun

/-- What is refused changes nothing, neither the pointer nor any slot. -/
theorem respond_refused {r : Request} {e : Fault} (h : (s.respond r).1 = .error e) :
    (s.respond r).2 = s := by
  cases r with
  | push address => exact answerUpdate_refused (push_atomic address) h
  | pop => exact answerUpdate_refused pop_atomic h
  | peek | reset | snapshot => cases h

/-! ## Dead slots -/

/-- The live addresses of a stack are a list of at most as many as there are slots. -/
def liveList (s : CallStack) : AddressList s.depth where
  addresses := s.toList.map UInt16.toNat
  length_le := by
    rw [List.length_map, length_toList]
    exact s.pointer_le

/-- **What is left in dead slots is never seen.** Stacks with as many slots and the same live addresses give
the same answers to any requests. -/
theorem serve_of_live (hdepth : t.depth = s.depth) (hlive : t.toList = s.toList)
    (requests : List Request) :
    (serve respond t requests).1 = (serve respond s requests).1 := by
  -- Both hold one list, from which all answers follow.
  have hs : s.Holds s.liveList := ⟨rfl, rfl⟩
  have ht : t.Holds s.liveList := ⟨hdepth, congrArg (List.map UInt16.toNat) hlive⟩
  exact (ht.serve requests).1.trans (hs.serve requests).1.symm

/-! ## Any requests -/

/-- What a stack of `depth` slots answers to requests, and what they leave of it. -/
def served (depth : Nat) (h : 0 < depth) (requests : List Request) :
    List (Except Fault Answer) × CallStack := serve respond (empty depth h) requests

/-- What a list of at most `depth` addresses, empty at first, answers to requests, and what they leave of
it. -/
def listed (depth : Nat) (requests : List Request) :
    List (Except Fault Answer) × AddressList depth := serve AddressList.respond .nil requests

/-- **A call stack is a bounded list of addresses.** A stack of any depth, asked for anything with any
addresses, any number of times, gives the answers of a list of at most as many addresses, which keeps the
low sixteen bits of each. The depth stays, the pointer is the length of the list, the live addresses are
the list and the latest is its last. Whatever the stack is asked next, it refuses an address only when the
list is full, to give one only when the list is empty, and nothing else; what it refuses leaves the pointer
and all slots as they were. A stack with anything else in its dead slots gives the same answers from then
on. -/
theorem refines_addressList [Room] (depth : Nat) (h : 0 < depth) (requests : List Request) :
    (reserve 8 depth = .ok () → create depth = .ok (empty depth h))
      ∧ (served depth h requests).1 = (listed depth requests).1
      ∧ (served depth h requests).2.depth = depth
      ∧ (served depth h requests).2.pointer = (listed depth requests).2.addresses.length
      ∧ (served depth h requests).2.toList.map UInt16.toNat = (listed depth requests).2.addresses
      ∧ (served depth h requests).2.peek.map UInt16.toNat
        = (listed depth requests).2.addresses.getLast?
      ∧ (∀ r e, ((served depth h requests).2.respond r).1 = .error e
          ↔ (∃ address, r = .push address) ∧ (listed depth requests).2.addresses.length = depth
              ∧ e = .stackOverflow depth
            ∨ r = .pop ∧ (listed depth requests).2.addresses = [] ∧ e = .stackUnderflow)
      ∧ (∀ r e, ((served depth h requests).2.respond r).1 = .error e →
          ((served depth h requests).2.respond r).2 = (served depth h requests).2)
      ∧ ∀ other : CallStack, other.depth = depth →
          other.toList = (served depth h requests).2.toList →
          ∀ later, (serve respond other later).1
            = (serve respond (served depth h requests).2 later).1 := by
  -- What the stack is in the end, and what it does next, is read off the list that it holds.
  obtain ⟨hanswers, hholds⟩ := (Holds.empty h).serve requests
  refine ⟨fun hroom => ?_, hanswers, hholds.depth_eq, hholds.pointer, hholds.live, hholds.peek,
    fun r e => ?_, fun r e => respond_refused, fun other hdepth hlive => ?_⟩
  · rw [create, dif_pos (Int.natCast_pos.mpr h), hroom]
    rfl
  · rw [served, listed, (hholds.respond r).1]
    exact AddressList.respond_eq_error_iff
  · exact serve_of_live (hdepth.trans hholds.depth_eq.symm) hlive

/-- Two slots that are filled beyond the end and emptied below it, with addresses that are too large or too
small. The address in a dead slot is not seen again. -/
theorem refines_addressList_ends :
    0 < 2
      ∧ (served 2 (by decide) [.pop, .push 0x102A4, .push (-1), .push 0x300, .snapshot, .pop, .peek,
          .push 0x10000, .snapshot, .reset, .peek, .pop]).1
        = [.error .stackUnderflow, .ok .done, .ok .done, .error (.stackOverflow 2),
          .ok (.live [0x2A4, 0xFFFF]), .ok (.taken 0xFFFF), .ok (.latest (some 0x2A4)), .ok .done,
          .ok (.live [0x2A4, 0]), .ok .done, .ok (.latest none), .error .stackUnderflow] :=
  ⟨by decide, (@refines_addressList .ample 2 (by decide) _).2.1.trans rfl⟩

end CallStack

end Chip8
