import Switchboard.Network
import Switchboard.Proofs.Carrier
import Switchboard.Proofs.Link.Sides

/-!
# Links fail for good

A memory link refuses every send once it is closed or the other side has dropped its stream, a WebSocket
link once it is closed or its sender has ended. None of this is ever undone, so that a network without
rehearsed links fails for good.
-/

namespace Switchboard

namespace Connection

def Lasting : Connection → Prop
  | memory _ | web _ => True
  | rehearsed _ => False

/-- A side refuses what it is given. -/
def Down : Connection → Side → Prop
  | memory l, s => l.closed = true ∨ (l.side s.other).inbox = none
  | web l, s => (l.side s).closed = true ∨ (l.side s).outbox = none
  | rehearsed _, _ => False

/-- What happens to a connection apart from sends. -/
inductive Moves (c : Connection) : Connection → Prop
  | close (s : Side) : Moves c (c.close s)
  | take (s : Side) : Moves c (c.take s).2
  | takeAll (s : Side) : Moves c (c.takeAll s).2
  | drop (s : Side) : Moves c (c.drop s)
  | advance {c' : Connection} (h : c.advance? = some c') : Moves c c'

variable {c c' : Connection} {s : Side}

theorem isOk_send_iff (h : c.Lasting) (s : Side) (data : Bytes) :
    (c.send s data).1.isOk = false ↔ c.Down s := by
  cases c with
  | memory l =>
    simp only [send, Down]
    cases hc : l.closed with
    | true => simp [MemoryLink.send_of_closed hc, Except.isOk, Except.toBool]
    | false =>
      cases hi : (l.side s.other).inbox with
      | none => simp [MemoryLink.send_of_dropped hc hi, Except.isOk, Except.toBool]
      | some waiting => simp [MemoryLink.send_of_listening hc hi, Except.isOk, Except.toBool]
  | web l =>
    simp only [send, WebLink.send, WebSide.send, Down]
    cases hc : (l.side s).closed with
    | true => simp [Except.isOk, Except.toBool]
    | false => cases ho : (l.side s).outbox <;> simp [Except.isOk, Except.toBool]
  | rehearsed l => cases h

theorem lasting_send (h : c.Lasting) (s : Side) (data : Bytes) : (c.send s data).2.Lasting := by
  cases c with
  | memory l => trivial
  | web l => trivial
  | rehearsed l => cases h

/-- Streams only grow or are dropped, and a closed link stays closed. -/
theorem Down.of_memory {l l' : MemoryLink} (h : (memory l).Down s) (hc : l.closed = true → l'.closed = true)
    (hi : (l.side s.other).inbox = none → (l'.side s.other).inbox = none) : (memory l').Down s :=
  h.imp hc hi

theorem Down.of_setInbox {l : MemoryLink} {inbox : Option (List Event)} {s' : Side} (h : (memory l).Down s)
    (hi : (l.side s').inbox = none → inbox = none) :
    (memory (l.setSide { l.side s' with inbox } s')).Down s := by
  refine h.of_memory (fun hc => by rwa [MemoryLink.closed_setSide]) fun ho => ?_
  rw [MemoryLink.side_setSide]
  split
  · next hs => exact hi (hs ▸ ho)
  · exact ho

theorem Down.of_web {l l' : WebLink} (h : (web l).Down s) (hc : (l.side s).closed = true → (l'.side s).closed = true)
    (ho : (l.side s).outbox = none → (l'.side s).outbox = none) : (web l').Down s :=
  h.imp hc ho

theorem Down.of_setSide {l : WebLink} {x : WebSide} {s' : Side} (h : (web l).Down s)
    (hc : (l.side s').closed = true → x.closed = true) (ho : (l.side s').outbox = none → x.outbox = none) :
    (web (l.setSide x s')).Down s := by
  refine h.of_web (fun hx => ?_) fun hx => ?_
  · rw [WebLink.side_setSide]
    split
    · next hs => exact hc (hs ▸ hx)
    · exact hx
  · rw [WebLink.side_setSide]
    split
    · next hs => exact ho (hs ▸ hx)
    · exact hx

theorem Down.send (h : c.Down s) (s' : Side) (data : Bytes) : (c.send s' data).2.Down s := by
  cases c with
  | memory l =>
    simp only [Connection.send]
    cases hc : l.closed with
    | true => rwa [MemoryLink.send_of_closed hc]
    | false =>
      have hn : ¬ l.closed = true := by simp [hc]
      have hd : (l.side s.other).inbox = none := h.resolve_left hn
      refine h.of_memory (fun hx => absurd hx hn) fun _ => ?_
      cases hi : (l.side s'.other).inbox with
      | none =>
        rw [MemoryLink.send_of_dropped hc hi, MemoryLink.side_setSide]
        split
        · next hs => rw [← hs]; exact hd
        · exact hd
      | some waiting =>
        have hs : s.other ≠ s'.other := fun hs => by rw [hs, hi] at hd; cases hd
        rw [MemoryLink.send_of_listening hc hi, MemoryLink.side_setSide, if_neg hs, MemoryLink.side_setSide]
        split
        · next hs => rw [← hs]; exact hd
        · exact hd
  | web l =>
    simp only [Connection.send, WebLink.send, WebSide.send]
    split
    · exact h.of_setSide id id
    · split
      · exact h.of_setSide id id
      · next hx => exact h.of_setSide id fun ho => by rw [ho] at hx; cases hx
  | rehearsed l => cases h

theorem Down.close (h : c.Down s) (s' : Side) : (c.close s').Down s := by
  cases c with
  | memory l => exact .inl l.closed_close
  | web l =>
    simp only [Connection.close, WebLink.close, WebSide.close]
    split
    · exact h.of_setSide id id
    · exact h.of_setSide (fun _ => rfl) fun ho => by rw [ho]; rfl
  | rehearsed l => cases h

theorem Down.take (h : c.Down s) (s' : Side) : (c.take s').2.Down s := by
  cases c with
  | memory l =>
    simp only [Connection.take, MemoryLink.take]
    split
    · next hi => exact h.of_setInbox fun ho => by rw [ho] at hi; cases hi
    · exact h
  | web l =>
    simp only [Connection.take, WebLink.take]
    split
    · exact h.of_setSide id id
    · exact h
  | rehearsed l => cases h

theorem Down.takeAll (h : c.Down s) (s' : Side) : (c.takeAll s').2.Down s := by
  cases c with
  | memory l =>
    simp only [Connection.takeAll, MemoryLink.takeAll]
    split
    · next hi => exact h.of_setInbox fun ho => by rw [ho] at hi; cases hi
    · exact h
  | web l =>
    simp only [Connection.takeAll, WebLink.takeAll]
    split
    · exact h.of_setSide id id
    · exact h
  | rehearsed l => cases h

theorem Down.drop (h : c.Down s) (s' : Side) : (c.drop s').Down s := by
  cases c with
  | memory l => exact h.of_setInbox fun _ => rfl
  | web l => exact h.of_setSide id id
  | rehearsed l => cases h

theorem Down.passOn {l l' : WebLink} (h : (web l).Down s) {s' : Side} (hl : l.passOn? s' = some l') :
    (web l').Down s := by
  unfold WebLink.passOn? at hl
  split at hl
  · next hx =>
    split at hl
    · cases hl
      exact h.of_setSide id fun _ => rfl
    · cases hl
      refine Down.of_setSide ?_ id id
      exact h.of_setSide id fun ho => by rw [ho] at hx; cases hx
  · cases hl

theorem side_read? {l l' : WebLink} {s' : Side} (h : l.read? s' = some l') (s : Side) :
    (l'.side s).closed = (l.side s).closed ∧ (l'.side s).outbox = (l.side s).outbox := by
  have reads : ∀ x : WebSide, x.closed = (l.side s').closed → x.outbox = (l.side s').outbox →
      ((l.setSide x s').side s).closed = (l.side s).closed ∧
        ((l.setSide x s').side s).outbox = (l.side s).outbox := fun x hc ho => by
    rw [WebLink.side_setSide]
    split
    · next hs => exact hs ▸ ⟨hc, ho⟩
    · exact ⟨rfl, rfl⟩
  unfold WebLink.read? at h
  dsimp only at h
  split at h
  · cases h
  · split at h
    · cases h
      rw [WebLink.side_severed]
      exact reads _ rfl rfl
    · cases h
      split
      · exact reads _ rfl rfl
      · exact reads _ rfl rfl
    · split at h
      · cases h
        exact reads _ rfl rfl
      · cases h

theorem Down.advance (h : c.Down s) (ha : c.advance? = some c') : c'.Down s := by
  cases c with
  | memory l => cases ha
  | rehearsed l => cases ha
  | web l =>
    obtain ⟨l', hl, rfl⟩ := Option.map_eq_some_iff.mp ha
    simp only [Option.orElse_eq_orElse, Option.orElse_eq_or, Option.or_eq_some_iff] at hl
    rcases hl with hl | ⟨-, hl | ⟨-, hl | ⟨-, hl⟩⟩⟩
    · exact h.passOn hl
    · exact h.passOn hl
    · exact h.of_web (fun hc => (side_read? hl s).1.trans hc) fun ho => (side_read? hl s).2.trans ho
    · exact h.of_web (fun hc => (side_read? hl s).1.trans hc) fun ho => (side_read? hl s).2.trans ho

theorem Down.moves (h : c.Down s) (hm : c.Moves c') : c'.Down s := by
  cases hm with
  | close s' => exact h.close s'
  | take s' => exact h.take s'
  | takeAll s' => exact h.takeAll s'
  | drop s' => exact h.drop s'
  | advance ha => exact h.advance ha

end Connection

namespace Network

def Lasting (n : Network) : Prop := ∀ c ∈ n.connections, c.Lasting

/-- The endpoint has no connection, or one whose side is down. -/
def Down (n : Network) (e : Endpoint) : Prop := ∀ c, n.get? e.connection = some c → c.Down e.side

inductive Moves (n : Network) : Network → Prop
  | mk {i : Nat} {c c' : Connection} (hc : n.get? i = some c) (hm : c.Moves c') :
      Moves n (n.modify i fun _ => c')

variable {n : Network}

theorem get?_modify_const (n : Network) (i j : Nat) (c : Connection) : (n.modify i fun _ => c).get? j =
    if i = j then (n.get? j).map fun _ => c else n.get? j := by
  simp only [get?, modify, List.getElem?_modify]
  split <;> simp_all

theorem isOk_carrier_iff (h : n.Lasting) (e : Endpoint) (data : Bytes) :
    (carrier.send n e data).1.isOk = false ↔ n.Down e := by
  unfold Down
  simp only [carrier]
  cases hc : n.get? e.connection with
  | none => simp [Except.isOk, Except.toBool]
  | some c =>
    have hl : c.Lasting := h c (List.mem_of_getElem? hc)
    simp only [Option.some.injEq, forall_eq']
    exact Connection.isOk_send_iff hl e.side data

theorem lasting_carrier (h : n.Lasting) (e : Endpoint) (data : Bytes) :
    (carrier.send n e data).2.Lasting := by
  simp only [carrier]
  cases hc : n.get? e.connection with
  | none => exact h
  | some c =>
    intro c' hc'
    obtain ⟨j, hj⟩ := List.getElem?_of_mem hc'
    have hj' := get?_modify_const n e.connection j (c.send e.side data).2
    rw [get?, hj] at hj'
    split at hj'
    · next he =>
      subst he
      rw [hc] at hj'
      rw [Option.some.inj hj']
      exact Connection.lasting_send (h c (List.mem_of_getElem? hc)) e.side data
    · exact h c' (List.mem_of_getElem? hj'.symm)

theorem Down.modify {e : Endpoint} (h : n.Down e) {i : Nat} {c c' : Connection} (hc : n.get? i = some c)
    (hd : ∀ s, c.Down s → c'.Down s) : (n.modify i fun _ => c').Down e := by
  intro d hg
  rw [get?_modify_const] at hg
  split at hg
  · next he =>
    subst he
    rw [hc] at hg
    rw [← Option.some.inj hg]
    exact hd e.side (h c hc)
  · exact h d hg

theorem Down.carrier {e : Endpoint} (h : n.Down e) (e' : Endpoint) (data : Bytes) :
    (carrier.send n e' data).2.Down e := by
  simp only [Network.carrier]
  cases hc : n.get? e'.connection with
  | none => exact h
  | some c => exact h.modify hc fun s hs => hs.send e'.side data

def lastingCarrier : Carrier { n : Network // n.Lasting } where
  send n e data := ((carrier.send n.1 e data).1, ⟨(carrier.send n.1 e data).2, lasting_carrier n.2 e data⟩)

theorem refuses_iff (n : { n : Network // n.Lasting }) (e : Endpoint) :
    lastingCarrier.Refuses n e ↔ n.1.Down e :=
  ⟨fun h => (isOk_carrier_iff n.2 e []).mp (h []), fun h data => (isOk_carrier_iff n.2 e data).mpr h⟩

theorem lastingCarrier_failsForGood : lastingCarrier.FailsForGood fun n n' => n.1.Moves n'.1 := by
  refine ⟨fun n e data h => ?_, fun n e e' data h => ?_, fun n n' e hm h => ?_⟩
  · rw [refuses_iff]
    exact ((isOk_carrier_iff n.2 e data).mp h).carrier e data
  · rw [refuses_iff] at h ⊢
    exact h.carrier e' data
  · rw [refuses_iff] at h ⊢
    obtain ⟨m', hl⟩ := n'
    dsimp only at hm ⊢
    cases hm with
    | mk hc hmoves => exact h.modify hc fun s hs => hs.moves hmoves

end Network

end Switchboard
