import Switchboard.Proofs.Wires

/-!
# The streams of a link

A memory link among connections of any kind, as its two streams. While it is open, whatever is sent on it
goes to the end of the other side's stream; once it is closed nothing is sent any more
(`Network.Links.sends`).
-/

namespace Switchboard

def Datagram.event (d : Datagram) : Event := .received d.id d.data

def datagrams (ss : List Sending) : List Datagram := ss.filterMap (·.datagram?)

/-- The other side takes the datagram as this event. -/
def Sending.ArrivesAs (x : Sending) (event : Event) : Prop := ∃ id, event = .received id x.data

theorem arrivals_of_ok {e : Endpoint} : ∀ {ss : List Sending}, (∀ x ∈ ss, x.endpoint = e ∧ x.result.isOk = true) →
    List.Forall₂ Sending.ArrivesAs ss ((wire (datagrams ss) e.connection e.side).map (·.event))
  | [], _ => .nil
  | ⟨e', data, r⟩ :: ss, h => by
    obtain ⟨he, hok⟩ := h _ (List.mem_cons_self ..)
    have ih := arrivals_of_ok fun x hx => h x (List.mem_cons_of_mem _ hx)
    obtain rfl : e' = e := he
    cases r with
    | error f => cases hok
    | ok id =>
      have hd : wire (datagrams (⟨e', data, .ok id⟩ :: ss)) e'.connection e'.side =
          ⟨e'.connection, e'.side, id, data⟩ :: wire (datagrams ss) e'.connection e'.side := by
        simp [datagrams, Sending.datagram?, wire]
      rw [hd, List.map_cons]
      exact .cons ⟨id, rfl⟩ ih

namespace MemoryLink

/-- A link, open or closed, over which `sent` was sent, with the streams that wait on its sides. -/
structure Holds (l : MemoryLink) (i : Nat) (sent : List Datagram) (closed : Bool)
    (streams : Side → List Event) : Prop where
  closed_eq : l.closed = closed
  inbox : ∀ s, (l.side s).inbox = some (streams s)
  carries : ∃ got, l.Carries i (wire sent i) got

variable {l : MemoryLink} {i : Nat} {sent : List Datagram} {closed : Bool} {streams : Side → List Event}

theorem Holds.close (h : l.Holds i sent closed streams) : l.close.Holds i sent true
    fun s => if closed then streams s else streams s ++ [.disconnected] := by
  obtain ⟨rfl, hi, got, hg⟩ := h
  refine ⟨l.closed_close, fun s => ?_, got, hg.close⟩
  cases hc : l.closed with
  | true =>
    rw [close_of_closed hc]
    exact hi s
  | false =>
    rw [side_close hc, MemorySide.push, hi s]
    rfl

theorem Holds.take (h : l.Holds i sent closed streams) {s : Side} {event : Event} {l' : MemoryLink}
    (ht : l.take s = (some event, l')) : ∃ rest, streams s = event :: rest ∧
      l'.Holds i sent closed fun s' => if s' = s then rest else streams s' := by
  obtain ⟨hc, hi, got, hg⟩ := h
  have hg' := hg.take ht
  cases hs : streams s with
  | nil =>
    unfold MemoryLink.take at ht
    rw [hi s, hs] at ht
    cases ht
  | cons e rest =>
    rw [take_of_waiting ((hi s).trans (congrArg some hs))] at ht
    obtain ⟨he, rfl⟩ := Prod.mk.inj ht
    obtain rfl := Option.some.inj he
    refine ⟨rest, rfl, by simpa using hc, fun s' => ?_, _, hg'⟩
    rw [side_setSide]
    split
    · rfl
    · exact hi s'

theorem Holds.send_closed (h : l.Holds i sent true streams) (s : Side) (data : Bytes) :
    ∃ f, l.send s data = (.error f, l) :=
  ⟨_, send_of_closed h.closed_eq data⟩

theorem Holds.send_open (h : l.Holds i sent false streams) (s : Side) (data : Bytes) :
    ∃ id l', l.send s data = (.ok id, l') ∧ l'.Holds i (sent ++ [⟨i, s, id, data⟩]) false
      fun s' => if s' = s.other then streams s' ++ [.received id data] else streams s' := by
  obtain ⟨hc, hi, got, hg⟩ := h
  have hs := send_of_listening hc (hi s.other) data
  refine ⟨_, _, hs, by simpa using hc, fun s' => ?_, got, ?_⟩
  · rw [side_setSide]
    split
    · next he => rw [he]
    · rw [side_setSide]
      split
      · next he => rw [← he]; exact hi s'
      · exact hi s'
  · have hw : (wire (sent ++ [⟨i, s, (l.side s).nextId, data⟩]) i) = fun s' =>
        if s' = s then wire sent i s' ++ [⟨i, s, (l.side s).nextId, data⟩] else wire sent i s' := by
      funext s'
      rw [wire_append]
      by_cases hss : s' = s
      · simp [wire, hss]
      · simp [wire, hss, Ne.symm hss]
    rw [hw]
    exact hg.send hs

/-- Below 2^30 datagrams the ids have not wrapped around. -/
theorem Holds.id_lt (h : l.Holds i sent closed streams) {s : Side} (hf : (wire sent i s).length < 2 ^ 30)
    {d : Datagram} (hd : d ∈ wire sent i s) : d.id.toNat < 2 ^ 30 := by
  obtain ⟨got, hg⟩ := h.carries
  have hm : d.id ∈ (wire sent i s).map (·.id) := List.mem_map_of_mem hd
  rw [hg.ids s] at hm
  obtain ⟨k, hk, hid⟩ := List.mem_map.mp hm
  have hle := (List.mem_range'_1.mp hk).2
  have hk' : k < 2 ^ 32 := by omega
  have hn : (UInt32.ofNat k).toNat = k := UInt32.toNat_ofNat_of_lt hk'
  rw [← hid, hn]
  omega

end MemoryLink

namespace Network

/-- Connection `i` is such a link. -/
def Links (n : Network) (i : Nat) (sent : List Datagram) (closed : Bool) (streams : Side → List Event) : Prop :=
  ∃ l, n.get? i = some (.memory l) ∧ l.Holds i sent closed streams

variable {n n' : Network} {i : Nat} {sent : List Datagram} {closed : Bool} {streams : Side → List Event}

theorem get?_modify_of_ne {j : Nat} (h : j ≠ i) (f : Connection → Connection) : (n.modify j f).get? i = n.get? i := by
  simp [get?, modify, h]

theorem Links.elsewhere (h : n.Links i sent closed streams) (hn : n'.get? i = n.get? i) :
    n'.Links i sent closed streams := by
  obtain ⟨l, hl, hh⟩ := h
  exact ⟨l, hn.trans hl, hh⟩

theorem Links.id_lt (h : n.Links i sent closed streams) {s : Side} (hf : (wire sent i s).length < 2 ^ 30)
    {d : Datagram} (hd : d ∈ wire sent i s) : d.id.toNat < 2 ^ 30 := by
  obtain ⟨l, -, hh⟩ := h
  exact hh.id_lt hf hd

theorem Links.close (h : n.Links i sent closed streams) (e : Endpoint) (he : e.connection = i) :
    (n.close e).Links i sent true fun s => if closed then streams s else streams s ++ [.disconnected] := by
  obtain ⟨l, hl, hh⟩ := h
  refine ⟨l.close, ?_, hh.close⟩
  unfold Network.close modify get? at *
  rw [he, List.getElem?_modify_eq, hl]
  rfl

theorem Links.take (h : n.Links i sent closed streams) {e : Endpoint} (he : e.connection = i) {event : Event}
    (ht : n.take e = (some event, n')) : ∃ rest, streams e.side = event :: rest ∧
      n'.Links i sent closed fun s => if s = e.side then rest else streams s := by
  obtain ⟨l, hl, hh⟩ := h
  unfold Network.take at ht
  rw [he, hl] at ht
  simp only [Connection.take, Prod.mk.injEq] at ht
  obtain ⟨hev, rfl⟩ := ht
  have hlt : l.take e.side = (some event, (l.take e.side).2) := by rw [← hev]
  obtain ⟨rest, hs, hh'⟩ := hh.take hlt
  refine ⟨rest, hs, _, ?_, hh'⟩
  rw [get?_modify_const, if_pos rfl, hl]
  rfl

theorem Links.beside (h : n.Links i sent closed streams) {ds : List Datagram} (hd : ∀ d ∈ ds, d.connection ≠ i)
    (hn : n'.get? i = n.get? i) : n'.Links i (sent ++ ds) closed
      fun s => streams s ++ (wire ds i s.other).map (·.event) := by
  obtain ⟨l, hl, hc, hi, got, hg⟩ := h
  refine ⟨l, hn.trans hl, hc, ?_, got, ?_⟩
  · intro s
    rw [wire_eq_nil hd, List.map_nil, List.append_nil]
    exact hi s
  · have hw : wire (sent ++ ds) i = wire sent i := by
      funext s
      rw [wire_append, wire_eq_nil hd, List.append_nil]
    rw [hw]
    exact hg

theorem Links.send (h : n.Links i sent closed streams) (e : Endpoint) (data : Bytes) :
    ((carrier.send n e data).2.Links i (sent ++ datagrams [⟨e, data, (carrier.send n e data).1⟩]) closed
      fun s => streams s ++ (wire (datagrams [⟨e, data, (carrier.send n e data).1⟩]) i s.other).map (·.event)) ∧
    (e.connection = i → (carrier.send n e data).1.isOk = !closed) := by
  by_cases he : e.connection = i
  · obtain ⟨l, hl, hh⟩ := h
    have hget : (n.modify i fun _ => Connection.memory (l.send e.side data).2).get? i =
        some (.memory (l.send e.side data).2) := by
      rw [get?_modify_const, if_pos rfl, hl]
      rfl
    simp only [carrier, he, hl, Connection.send]
    cases closed with
    | true =>
      obtain ⟨f, hf⟩ := hh.send_closed e.side data
      rw [hf] at hget ⊢
      refine ⟨⟨l, hget, ?_⟩, fun _ => rfl⟩
      simpa [datagrams, Sending.datagram?, wire] using hh
    | false =>
      obtain ⟨id, l', hs, hh'⟩ := hh.send_open e.side data
      rw [hs] at hget ⊢
      have hd : datagrams [⟨e, data, .ok id⟩] = [⟨i, e.side, id, data⟩] := by
        simp [datagrams, Sending.datagram?, he]
      rw [hd]
      refine ⟨⟨l', hget, ?_⟩, fun _ => rfl⟩
      have hstreams : (fun s => if s = e.side.other then streams s ++ [.received id data] else streams s) =
          fun s => streams s ++ (wire [⟨i, e.side, id, data⟩] i s.other).map (·.event) := by
        funext s
        cases s <;> cases e.side <;> simp [wire, Side.other, Datagram.event]
      rw [← hstreams]
      exact hh'
  · refine ⟨h.beside ?_ ?_, fun hi => absurd hi he⟩
    · intro d hd
      obtain ⟨x, hx, id, -, rfl⟩ := mem_datagrams.mp hd
      rw [List.mem_singleton.mp hx]
      exact he
    · simp only [carrier]
      cases n.get? e.connection with
      | none => rfl
      | some c => exact get?_modify_of_ne he _

/-- What is sent while the link is open arrives on the other side; what is sent afterwards is refused. -/
theorem Links.sends {ss : List Sending} (h : n.Links i sent closed streams) (hs : carrier.Sends n ss n') :
    (n'.Links i (sent ++ datagrams ss) closed
      fun s => streams s ++ (wire (datagrams ss) i s.other).map (·.event)) ∧
    ∀ x ∈ ss, x.endpoint.connection = i → x.result.isOk = !closed := by
  induction hs generalizing sent streams with
  | nil n =>
    refine ⟨?_, fun x hx => by cases hx⟩
    simpa [datagrams, wire] using h
  | @cons n n' e data ss hs ih =>
    obtain ⟨h1, hok⟩ := h.send e data
    obtain ⟨h2, hoks⟩ := ih h1
    have hd : datagrams (⟨e, data, (carrier.send n e data).1⟩ :: ss) =
        datagrams [⟨e, data, (carrier.send n e data).1⟩] ++ datagrams ss :=
      List.filterMap_append (l := [_])
    rw [hd, ← List.append_assoc]
    refine ⟨?_, ?_⟩
    · have hstreams : (fun s => streams s ++ (wire (datagrams [⟨e, data, (carrier.send n e data).1⟩] ++
          datagrams ss) i s.other).map (·.event)) = fun s => (streams s ++
            (wire (datagrams [⟨e, data, (carrier.send n e data).1⟩]) i s.other).map (·.event)) ++
            (wire (datagrams ss) i s.other).map (·.event) := by
        funext s
        rw [wire_append, List.map_append, List.append_assoc]
      rw [hstreams]
      exact h2
    · intro x hx
      rcases List.mem_cons.mp hx with rfl | hx
      · exact hok
      · exact hoks x hx

theorem Links.sends_closed {ss : List Sending} (h : n.Links i sent true streams) (hs : carrier.Sends n ss n') :
    n'.Links i (sent ++ datagrams ss) true streams := by
  obtain ⟨h', hok⟩ := h.sends hs
  have hd : ∀ d ∈ datagrams ss, d.connection ≠ i := by
    intro d hd hi
    obtain ⟨x, hx, id, hr, rfl⟩ := mem_datagrams.mp hd
    have hn := hok x hx hi
    rw [hr] at hn
    cases hn
  have hstreams : (fun s => streams s ++ (wire (datagrams ss) i s.other).map (·.event)) = streams := by
    funext s
    rw [wire_eq_nil hd, List.map_nil, List.append_nil]
  rwa [hstreams] at h'

/-- What the near side sends arrives on the far side, and nothing comes back. -/
theorem Links.sends_near {ss : List Sending} (h : n.Links i sent false streams) (hs : carrier.Sends n ss n')
    {name : Address} (he : ∀ x ∈ ss, x.endpoint = ⟨name, i, .near⟩) : ∃ streams' arrived,
      n'.Links i (sent ++ datagrams ss) false streams' ∧ streams' .near = streams .near ∧
      streams' .far = streams .far ++ arrived ∧ List.Forall₂ Sending.ArrivesAs ss arrived := by
  obtain ⟨h', hok⟩ := h.sends hs
  have hall : ∀ x ∈ ss, x.endpoint = ⟨name, i, .near⟩ ∧ x.result.isOk = true := by
    intro x hx
    have hxe := he x hx
    exact ⟨hxe, hok x hx (by rw [hxe])⟩
  have hback : wire (datagrams ss) i .far = [] := by
    refine List.filter_eq_nil_iff.mpr fun d hd hc => ?_
    obtain ⟨x, hx, id, -, rfl⟩ := mem_datagrams.mp hd
    have hside := (of_decide_eq_true hc).2
    rw [he x hx] at hside
    cases hside
  refine ⟨_, _, h', ?_, rfl, arrivals_of_ok hall⟩
  show streams .near ++ (wire (datagrams ss) i .far).map _ = streams .near
  rw [hback, List.map_nil, List.append_nil]

end Network

end Switchboard
