import Switchboard.Link.Memory
import Switchboard.Link.Web

/-!
# The sides of a link

What is put on one side of a link is found there, and nothing else changes. Each operation is one or two such
changes.
-/

namespace Switchboard

namespace Side

@[simp] theorem other_other (s : Side) : s.other.other = s := by cases s <;> rfl

@[simp] theorem other_ne (s : Side) : s.other ≠ s := by cases s <;> simp [other]

@[simp] theorem ne_other (s : Side) : s ≠ s.other := s.other_ne.symm

theorem eq_other {s s' : Side} (h : s' ≠ s) : s' = s.other := by
  cases s <;> cases s' <;> first | rfl | exact absurd rfl h

end Side

namespace MemoryLink

theorem side_setSide (l : MemoryLink) (x : MemorySide) (s s' : Side) :
    (l.setSide x s).side s' = if s' = s then x else l.side s' := by
  cases s <;> cases s' <;> rfl

@[simp] theorem closed_setSide (l : MemoryLink) (x : MemorySide) (s : Side) :
    (l.setSide x s).closed = l.closed := by
  cases s <;> rfl

@[simp] theorem peer_setSide (l : MemoryLink) (x : MemorySide) (s s' : Side) :
    (l.setSide x s).peer s' = l.peer s' := by
  cases s <;> cases s' <;> rfl

variable {l : MemoryLink} {s : Side}

theorem send_of_closed (hc : l.closed = true) (data : Bytes) :
    l.send s data = (.error (.sendFailure s!"link to {l.peer s} closed"), l) := by
  rw [send, if_pos hc]

theorem send_of_dropped (hc : l.closed = false) (hi : (l.side s.other).inbox = none) (data : Bytes) :
    l.send s data = (.error (.sendFailure "channel closed"),
      l.setSide { l.side s with nextId := (l.side s).nextId + 1 } s) := by
  simp [send, hc, hi, side_setSide]

theorem send_of_listening {waiting : List Event} (hc : l.closed = false)
    (hi : (l.side s.other).inbox = some waiting) (data : Bytes) :
    l.send s data = (.ok (l.side s).nextId,
      (l.setSide { l.side s with nextId := (l.side s).nextId + 1 } s).setSide
        { l.side s.other with inbox := some (waiting ++ [.received (l.side s).nextId data]) } s.other) := by
  simp [send, hc, hi, side_setSide, MemorySide.push]

theorem take_of_waiting {e : Event} {rest : List Event} (hi : (l.side s).inbox = some (e :: rest)) :
    l.take s = (some e, l.setSide { l.side s with inbox := some rest } s) := by
  simp [take, hi]

theorem closed_close (l : MemoryLink) : l.close.closed = true := by
  unfold close
  split
  · assumption
  · rfl

theorem peer_close (l : MemoryLink) (s : Side) : l.close.peer s = l.peer s := by
  unfold close
  split
  · rfl
  · cases s <;> rfl

theorem close_of_closed (hc : l.closed = true) : l.close = l := if_pos hc

theorem side_close (hc : l.closed = false) (s : Side) : l.close.side s = (l.side s).push .disconnected := by
  unfold close
  rw [hc]
  cases s <;> rfl

end MemoryLink

namespace WebLink

theorem side_setSide (l : WebLink) (x : WebSide) (s s' : Side) :
    (l.setSide x s).side s' = if s' = s then x else l.side s' := by
  cases s <;> cases s' <;> rfl

theorem side_severed (l : WebLink) (severed : Bool) (s : Side) : { l with severed }.side s = l.side s := by
  cases s <;> rfl

@[simp] theorem severed_setSide (l : WebLink) (x : WebSide) (s : Side) : (l.setSide x s).severed = l.severed := by
  cases s <;> rfl

end WebLink

end Switchboard
