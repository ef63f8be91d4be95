import Mathlib.Algebra.Group.Nat.Defs
import Mathlib.Data.List.Nodup
import Switchboard.Proofs.History
import Switchboard.Proofs.Network

/-!
# Memory links as wires

Each side of a memory link numbers what it sends `1, 2, 3, …`, and the other side takes it in this order:
what was sent is what was taken, followed by what still waits (`Network.Carries`). So no two datagrams of
a side have one id, and none is taken twice, as long as the ids do not wrap around.
-/

namespace Switchboard

/-- A datagram that a side of a connection sent, under its local id. -/
structure Datagram where
  connection : Nat
  side : Side
  id : UInt32
  data : Bytes

def Datagram.key (d : Datagram) : Nat × Side × UInt32 := (d.connection, d.side, d.id)

def Sending.datagram? (s : Sending) : Option Datagram :=
  match s.result with
  | .ok id => some ⟨s.endpoint.connection, s.endpoint.side, id, s.data⟩
  | .error _ => none

theorem Sending.datagram?_eq_some {s : Sending} {d : Datagram} : s.datagram? = some d ↔
    ∃ id, s.result = .ok id ∧ d = ⟨s.endpoint.connection, s.endpoint.side, id, s.data⟩ := by
  unfold datagram?
  cases s.result with
  | ok id =>
    constructor
    · intro h
      exact ⟨id, rfl, (Option.some.inj h).symm⟩
    · rintro ⟨id', hid, rfl⟩
      rw [Except.ok.inj hid]
  | error f =>
    constructor
    · intro h; cases h
    · rintro ⟨id', hid, -⟩; cases hid

theorem mem_datagrams {sent : List Sending} {d : Datagram} : d ∈ sent.filterMap (·.datagram?) ↔
    ∃ s ∈ sent, ∃ id, s.result = .ok id ∧ d = ⟨s.endpoint.connection, s.endpoint.side, id, s.data⟩ := by
  rw [List.mem_filterMap]
  exact exists_congr fun s => and_congr_right fun _ => Sending.datagram?_eq_some

/-- What an event brings from side `s` of connection `i`. -/
def Event.datagram? (i : Nat) (s : Side) : Event → Option Datagram
  | .received id data => some ⟨i, s, id, data⟩
  | .connected | .disconnected => none

/-- The datagrams of one side of a connection. -/
def wire (ds : List Datagram) (i : Nat) (s : Side) : List Datagram :=
  ds.filter fun d => d.connection = i ∧ d.side = s

section
variable {ds : List Datagram} {d : Datagram} {i : Nat} {s : Side}

theorem mem_wire : d ∈ wire ds i s ↔ d ∈ ds ∧ d.connection = i ∧ d.side = s := by
  simp [wire]

theorem wire_append (ds ds' : List Datagram) (i : Nat) (s : Side) :
    wire (ds ++ ds') i s = wire ds i s ++ wire ds' i s := List.filter_append ..

theorem wire_eq_nil (h : ∀ d ∈ ds, d.connection ≠ i) : wire ds i s = [] := by
  refine List.filter_eq_nil_iff.mpr fun d hd => ?_
  have := h d hd
  simp [this]

theorem wire_toList {o : Option Datagram} (h : ∀ d ∈ o, d.connection = i ∧ d.side = s) (s' : Side) :
    wire o.toList i s' = if s' = s then o.toList else [] := by
  cases o with
  | none => simp [wire]
  | some d =>
    obtain ⟨hi, hs⟩ := h d rfl
    by_cases hss : s' = s
    · simp [wire, hi, hs, hss]
    · simp [wire, hi, hs, hss, Ne.symm hss]

theorem wire_append_toList {o : Option Datagram} (h : ∀ d ∈ o, d.connection = i ∧ d.side = s) :
    wire (ds ++ o.toList) i = fun s' => if s' = s then wire ds i s' ++ o.toList else wire ds i s' := by
  funext s'
  rw [wire_append, wire_toList h]
  split
  · rfl
  · exact List.append_nil _

/-- Keys are distinct if the ids of each wire are. -/
theorem keys_nodup : ∀ {ds : List Datagram}, (∀ i s, ((wire ds i s).map (·.id)).Nodup) →
    (ds.map Datagram.key).Nodup
  | [], _ => List.nodup_nil
  | d :: ds, h => by
    have rest : ∀ i s, ((wire ds i s).map (·.id)).Nodup := by
      intro i s
      refine (h i s).sublist (List.Sublist.map _ ?_)
      exact (List.sublist_cons_self d ds).filter _
    refine List.nodup_cons.mpr ⟨fun hd => ?_, keys_nodup rest⟩
    obtain ⟨d', hd', hk⟩ := List.mem_map.mp hd
    obtain ⟨hi, hs, hid⟩ : d'.connection = d.connection ∧ d'.side = d.side ∧ d'.id = d.id := by
      simpa [Datagram.key] using hk
    have hn := h d.connection d.side
    rw [show wire (d :: ds) d.connection d.side = d :: wire ds d.connection d.side by simp [wire],
      List.map_cons, List.nodup_cons] at hn
    exact hn.1 (List.mem_map.mpr ⟨d', mem_wire.mpr ⟨hd', hi, hs⟩, hid⟩)

end

/-! ## One link -/

namespace MemoryLink

/-- A link through which `out` was sent and of this `got` was taken, by the side that sent it. -/
structure Carries (l : MemoryLink) (i : Nat) (out got : Side → List Datagram) : Prop where
  next : ∀ s, (l.side s).nextId = UInt32.ofNat ((out s).length + 1)
  ids : ∀ s, (out s).map (·.id) = (List.range' 1 (out s).length).map UInt32.ofNat
  stream : ∀ s, ∃ events, (l.side s.other).inbox = some events ∧
    out s = got s ++ events.filterMap (Event.datagram? i s)

variable {l : MemoryLink} {i : Nat} {out got : Side → List Datagram}

theorem carries_connect (near far : Address) (i : Nat) (h : ∀ s, out s = []) (h' : ∀ s, got s = []) :
    (connect near far).Carries i out got := by
  refine ⟨fun s => ?_, fun s => ?_, fun s => ⟨[.connected], ?_, ?_⟩⟩
  · rw [h s]; cases s <;> rfl
  · rw [h s]; rfl
  · cases s <;> rfl
  · rw [h s, h' s]; rfl

theorem Carries.close (h : l.Carries i out got) : l.close.Carries i out got := by
  cases hc : l.closed with
  | true =>
    rw [close_of_closed hc]
    exact h
  | false =>
    refine ⟨fun s => ?_, h.ids, fun s => ?_⟩
    · rw [side_close hc]
      exact h.next s
    · obtain ⟨events, hi, ho⟩ := h.stream s
      refine ⟨events ++ [.disconnected], ?_, ?_⟩
      · rw [side_close hc, MemorySide.push, hi]
        rfl
      · rw [List.filterMap_append, ← List.append_assoc, ← ho]
        exact (List.append_nil _).symm

theorem Carries.take {s : Side} {event : Event} {l' : MemoryLink} (h : l.Carries i out got)
    (ht : l.take s = (some event, l')) :
    l'.Carries i out fun s' =>
      if s' = s.other then got s' ++ (Event.datagram? i s.other event).toList else got s' := by
  obtain ⟨events, hi, ho⟩ := h.stream s.other
  rw [Side.other_other] at hi
  cases events with
  | nil =>
    unfold MemoryLink.take at ht
    rw [hi] at ht
    cases ht
  | cons e rest =>
    rw [take_of_waiting hi] at ht
    obtain ⟨he, rfl⟩ := Prod.mk.inj ht
    obtain rfl := Option.some.inj he
    refine ⟨fun s' => ?_, h.ids, fun s' => ?_⟩
    · rw [← h.next s', side_setSide]
      split
      · next hs => rw [hs]
      · rfl
    · by_cases hs : s' = s.other
      · subst hs
        refine ⟨rest, by simp [side_setSide], ?_⟩
        rw [if_pos rfl, ho, List.append_assoc, List.filterMap_cons]
        cases Event.datagram? i s.other e <;> rfl
      · obtain ⟨events', hi', ho'⟩ := h.stream s'
        have hs' : s'.other ≠ s := fun he => hs (by rw [← he, Side.other_other])
        refine ⟨events', ?_, by rw [if_neg hs]; exact ho'⟩
        rw [side_setSide, if_neg hs']
        exact hi'

theorem Carries.send_refused {s : Side} {data : Bytes} {f : Failure} {l' : MemoryLink} (h : l.Carries i out got)
    (hs : l.send s data = (.error f, l')) : l' = l := by
  cases hc : l.closed with
  | true =>
    rw [send_of_closed hc] at hs
    exact (Prod.mk.inj hs).2.symm
  | false =>
    obtain ⟨events, hi, -⟩ := h.stream s
    rw [send_of_listening hc hi] at hs
    cases (Prod.mk.inj hs).1

theorem Carries.send {s : Side} {data : Bytes} {id : UInt32} {l' : MemoryLink} (h : l.Carries i out got)
    (hs : l.send s data = (.ok id, l')) :
    l'.Carries i (fun s' => if s' = s then out s' ++ [⟨i, s, id, data⟩] else out s') got := by
  cases hc : l.closed with
  | true =>
    rw [send_of_closed hc] at hs
    cases (Prod.mk.inj hs).1
  | false =>
    obtain ⟨events, hi, ho⟩ := h.stream s
    rw [send_of_listening hc hi] at hs
    obtain ⟨hid, rfl⟩ := Prod.mk.inj hs
    obtain rfl := Except.ok.inj hid
    refine ⟨fun s' => ?_, fun s' => ?_, fun s' => ?_⟩
    · by_cases hss : s' = s
      · subst hss
        rw [if_pos rfl, List.length_append, List.length_singleton, UInt32.ofNat_add, ← h.next s']
        simp [side_setSide]
      · obtain rfl := Side.eq_other hss
        rw [if_neg hss, ← h.next s.other]
        simp [side_setSide]
    · by_cases hss : s' = s
      · subst hss
        rw [if_pos rfl, List.map_append, h.ids s', List.length_append, List.length_singleton,
          map_range'_snoc, List.map_singleton, h.next s']
      · rw [if_neg hss]; exact h.ids s'
    · by_cases hss : s' = s
      · subst hss
        refine ⟨events ++ [.received (l.side s').nextId data], by simp [side_setSide], ?_⟩
        rw [if_pos rfl, ho, List.filterMap_append, List.append_assoc]
        rfl
      · obtain ⟨events', hi', ho'⟩ := h.stream s'
        refine ⟨events', ?_, by rw [if_neg hss]; exact ho'⟩
        obtain rfl := Side.eq_other hss
        simpa [side_setSide] using hi'

end MemoryLink

/-! ## Networks of memory links -/

namespace Network

/-- A network of memory links through which `sent` was sent and of this `taken` was taken. -/
structure Carries (n : Network) (sent taken : List Datagram) : Prop where
  links : ∀ i c, n.get? i = some c → ∃ l, c = .memory l ∧ l.Carries i (wire sent i) (wire taken i)
  sent_lt : ∀ d ∈ sent, d.connection < n.connections.length
  taken_lt : ∀ d ∈ taken, d.connection < n.connections.length

variable {n n' : Network} {sent taken : List Datagram}

theorem carries_empty : empty.Carries [] [] :=
  ⟨fun i c hc => (by cases hc), fun d hd => (by cases hd), fun d hd => (by cases hd)⟩

theorem Carries.add (h : n.Carries sent taken) (near far : Address) :
    (n.add (.memory (.connect near far))).2.Carries sent taken := by
  have hlen : (n.add (.memory (.connect near far))).2.connections.length = n.connections.length + 1 := by
    simp [Network.add]
  refine ⟨fun i c hc => ?_, fun d hd => ?_, fun d hd => ?_⟩
  · rcases Nat.lt_or_ge i n.connections.length with hi | hi
    · refine h.links i c ?_
      rw [← hc]
      exact (List.getElem?_append_left hi).symm
    · have hi' : i = n.connections.length := by
        have := (List.getElem?_eq_some_iff.mp hc).1
        rw [hlen] at this
        omega
      subst hi'
      refine ⟨.connect near far, ?_, MemoryLink.carries_connect near far _ (fun s => ?_) fun s => ?_⟩
      · rw [get?, Network.add, List.getElem?_concat_length] at hc
        exact (Option.some.inj hc).symm
      · exact wire_eq_nil fun d hd => Nat.ne_of_lt (h.sent_lt d hd)
      · exact wire_eq_nil fun d hd => Nat.ne_of_lt (h.taken_lt d hd)
  · rw [hlen]; exact Nat.lt_succ_of_lt (h.sent_lt d hd)
  · rw [hlen]; exact Nat.lt_succ_of_lt (h.taken_lt d hd)

/-- Only one link changes. -/
theorem Carries.modify (h : n.Carries sent taken) {j : Nat} {l : MemoryLink} (hl : n.get? j = some (.memory l))
    (l' : MemoryLink) (ds ds' : List Datagram) (hs : ∀ d ∈ ds, d.connection = j)
    (ht : ∀ d ∈ ds', d.connection = j) (h' : l'.Carries j (wire (sent ++ ds) j) (wire (taken ++ ds') j)) :
    (n.modify j fun _ => .memory l').Carries (sent ++ ds) (taken ++ ds') := by
  have hj : j < n.connections.length := (List.getElem?_eq_some_iff.mp hl).1
  have hlen : (n.modify j fun _ => .memory l').connections.length = n.connections.length := by
    simp [Network.modify]
  have others : ∀ {i : Nat} {xs : List Datagram}, j ≠ i → (∀ d ∈ xs, d.connection = j) →
      ∀ ys, wire (ys ++ xs) i = wire ys i := by
    intro i xs hji hxs ys
    funext s
    rw [wire_append, wire_eq_nil (i := i) (s := s) fun d (hd : d ∈ xs) => by rw [hxs d hd]; exact hji,
      List.append_nil]
  refine ⟨fun i c hc => ?_, fun d hd => ?_, fun d hd => ?_⟩
  · rw [get?_modify_const] at hc
    split at hc
    · next hji =>
      subst hji
      rw [hl] at hc
      exact ⟨l', (Option.some.inj hc).symm, h'⟩
    · next hji =>
      rw [others hji hs, others hji ht]
      exact h.links i c hc
  · rw [hlen]
    rcases List.mem_append.mp hd with hd | hd
    · exact h.sent_lt d hd
    · rw [hs d hd]; exact hj
  · rw [hlen]
    rcases List.mem_append.mp hd with hd | hd
    · exact h.taken_lt d hd
    · rw [ht d hd]; exact hj

theorem Carries.close (h : n.Carries sent taken) (e : Endpoint) : (n.close e).Carries sent taken := by
  cases hc : n.get? e.connection with
  | none =>
    have : n.close e = n := by
      simp only [Network.close, Network.modify, List.modify_eq_self (List.getElem?_eq_none_iff.mp hc)]
    rw [this]; exact h
  | some c =>
    obtain ⟨l, rfl, hl⟩ := h.links _ c hc
    have hm := h.modify hc l.close [] [] (fun d hd => by cases hd) (fun d hd => by cases hd)
      (by simpa using hl.close)
    have : n.close e = n.modify e.connection fun _ => .memory l.close := by
      simp only [Network.close, Network.modify]
      rw [List.modify_eq_set_getElem?, List.modify_eq_set_getElem?]
      rw [get?] at hc
      simp [hc, Connection.close]
    rw [this]
    simpa using hm

theorem Carries.take (h : n.Carries sent taken) {e : Endpoint} {event : Event}
    (ht : n.take e = (some event, n')) :
    n'.Carries sent (taken ++ (event.datagram? e.connection e.side.other).toList) := by
  unfold Network.take at ht
  cases hc : n.get? e.connection with
  | none => rw [hc] at ht; cases ht
  | some c =>
    obtain ⟨l, rfl, hl⟩ := h.links _ c hc
    rw [hc] at ht
    simp only [Connection.take, Prod.mk.injEq] at ht
    obtain ⟨he, rfl⟩ := ht
    have hd : ∀ d ∈ event.datagram? e.connection e.side.other,
        d.connection = e.connection ∧ d.side = e.side.other := by
      intro d hd
      cases event <;> cases hd
      exact ⟨rfl, rfl⟩
    have hm := h.modify hc (l.take e.side).2 [] (event.datagram? e.connection e.side.other).toList
      (fun d hd => by cases hd) (fun d hm => (hd d (Option.mem_toList.mp hm)).1) ?_
    · rwa [List.append_nil] at hm
    · rw [List.append_nil]
      rw [wire_append_toList hd]
      exact hl.take (by rw [← he])

theorem Carries.send (h : n.Carries sent taken) (e : Endpoint) (data : Bytes) :
    (carrier.send n e data).2.Carries
      (sent ++ (Sending.datagram? ⟨e, data, (carrier.send n e data).1⟩).toList) taken := by
  simp only [carrier]
  cases hc : n.get? e.connection with
  | none => simpa [Sending.datagram?] using h
  | some c =>
    obtain ⟨l, rfl, hl⟩ := h.links _ c hc
    simp only [Connection.send]
    have hd : ∀ d ∈ Sending.datagram? ⟨e, data, (l.send e.side data).1⟩,
        d.connection = e.connection ∧ d.side = e.side := by
      intro d hd
      cases hr : (l.send e.side data).1 with
      | ok id =>
        rw [hr] at hd
        cases hd
        exact ⟨rfl, rfl⟩
      | error f => rw [hr] at hd; cases hd
    have hm := h.modify hc (l.send e.side data).2 (Sending.datagram? ⟨e, data, (l.send e.side data).1⟩).toList []
      (fun d hm => (hd d (Option.mem_toList.mp hm)).1) (fun d hd => by cases hd) ?_
    · rwa [List.append_nil] at hm
    · rw [List.append_nil]
      cases hr : l.send e.side data with
      | mk r l' =>
        rw [hr] at hd
        cases r with
        | error f =>
          rw [hl.send_refused hr]
          simpa [Sending.datagram?] using hl
        | ok id =>
          rw [wire_append_toList hd]
          exact hl.send hr

theorem Carries.sends (h : n.Carries sent taken) {ss : List Sending} (hs : carrier.Sends n ss n') :
    n'.Carries (sent ++ ss.filterMap (·.datagram?)) taken := by
  induction hs generalizing sent with
  | nil n => simpa using h
  | @cons n n' e data ss hs ih =>
    have := ih (h.send e data)
    rw [List.append_assoc] at this
    convert this using 2
    rw [List.filterMap_cons]
    cases Sending.datagram? ⟨e, data, (carrier.send n e data).1⟩ <;> rfl

/-! ## Ids below the wrap-around -/

/-- Every side sent fewer than 2^30 datagrams. -/
def Few (sent : List Datagram) : Prop := ∀ i s, (wire sent i s).length < 2 ^ 30

theorem few_of_length (h : sent.length < 2 ^ 30) : Few sent :=
  fun _ _ => Nat.lt_of_le_of_lt (List.length_filter_le _ sent) h

theorem Carries.mem_sent (h : n.Carries sent taken) {d : Datagram} (hd : d ∈ taken) : d ∈ sent := by
  have hlt := h.taken_lt d hd
  obtain ⟨l, -, hl⟩ := h.links d.connection _ (List.getElem?_eq_getElem hlt)
  obtain ⟨events, -, ho⟩ := hl.stream d.side
  have : d ∈ wire sent d.connection d.side := by
    rw [ho]
    exact List.mem_append_left _ (mem_wire.mpr ⟨hd, rfl, rfl⟩)
  exact (mem_wire.mp this).1

theorem wire_eq_nil_of_none {ds : List Datagram} (h : ∀ d ∈ ds, d.connection < n.connections.length) {i : Nat}
    (hc : n.get? i = none) (s : Side) : wire ds i s = [] := by
  refine wire_eq_nil fun d hd hi => ?_
  have hlt := h d hd
  rw [hi] at hlt
  exact absurd (List.getElem?_eq_none_iff.mp hc) (Nat.not_le_of_lt hlt)

theorem Carries.ids (h : n.Carries sent taken) (hf : Few sent) (i : Nat) (s : Side) :
    (wire sent i s).map (·.id.toNat) = List.range' 1 (wire sent i s).length := by
  cases hc : n.get? i with
  | none =>
    rw [wire_eq_nil_of_none h.sent_lt hc]
    rfl
  | some c =>
    obtain ⟨l, -, hl⟩ := h.links i c hc
    have hids := congrArg (List.map UInt32.toNat) (hl.ids s)
    rw [List.map_map, List.map_map] at hids
    refine hids.trans ?_
    conv => rhs; rw [← List.map_id (List.range' 1 (wire sent i s).length)]
    refine List.map_congr_left fun k hk => ?_
    have hk' : k < 2 ^ 32 := by
      have := (List.mem_range'_1.mp hk).2
      have := hf i s
      omega
    exact UInt32.toNat_ofNat_of_lt hk'

theorem Carries.id_lt (h : n.Carries sent taken) (hf : Few sent) {d : Datagram} (hd : d ∈ sent) :
    d.id.toNat < 2 ^ 30 := by
  have hm : d.id.toNat ∈ (wire sent d.connection d.side).map (·.id.toNat) :=
    List.mem_map.mpr ⟨d, mem_wire.mpr ⟨hd, rfl, rfl⟩, rfl⟩
  rw [h.ids hf] at hm
  have := (List.mem_range'_1.mp hm).2
  have := hf d.connection d.side
  omega

theorem Carries.wire_nodup (h : n.Carries sent taken) (hf : Few sent) (i : Nat) (s : Side) :
    ((wire sent i s).map (·.id)).Nodup := by
  have hn : (((wire sent i s).map (·.id)).map UInt32.toNat).Nodup := by
    rw [List.map_map]
    exact (h.ids hf i s : List.map (UInt32.toNat ∘ Datagram.id) _ = _) ▸ List.nodup_range'
  exact hn.of_map

theorem Carries.sent_nodup (h : n.Carries sent taken) (hf : Few sent) : (sent.map Datagram.key).Nodup :=
  keys_nodup fun i s => h.wire_nodup hf i s

theorem Carries.taken_nodup (h : n.Carries sent taken) (hf : Few sent) : (taken.map Datagram.key).Nodup := by
  refine keys_nodup fun i s => ?_
  cases hc : n.get? i with
  | none =>
    rw [wire_eq_nil_of_none h.taken_lt hc]
    exact List.nodup_nil
  | some c =>
    obtain ⟨l, -, hl⟩ := h.links i c hc
    obtain ⟨events, -, ho⟩ := hl.stream s
    have := h.wire_nodup hf i s
    rw [ho, List.map_append] at this
    exact this.of_append_left

theorem Carries.data_eq (h : n.Carries sent taken) (hf : Few sent) {d d' : Datagram} (hd : d ∈ sent)
    (hd' : d' ∈ sent) (hk : d.key = d'.key) : d.data = d'.data := by
  rw [List.inj_on_of_nodup_map (h.sent_nodup hf) hd hd' hk]

end Network

end Switchboard
