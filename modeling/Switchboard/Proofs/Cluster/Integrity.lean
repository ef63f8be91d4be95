import Mathlib.Data.List.Pairwise
import Switchboard.Proofs.Cluster.Ledgers
import Switchboard.Proofs.Cluster.Preservation

/-!
# Answers from end to end

A callback that is run with an answer goes back to the datagram that brought it, to the turn of the
broker that forwarded the answer, to the copy that the answer was for, and to the run of a handler on this
copy. Each of these is the only one of its kind, so that distinct callbacks go back to distinct runs of
handlers (`Reaches.answers_intact`). Ids must not wrap around, nor reach those that control messages have
when they are read as packets.
-/

namespace Switchboard.Cluster

open Broker (marks mem_marks_append copied mem_copied)

namespace Chronicle

/-- The run `y` of a handler gave the answer that callback `c` was run with, to a copy of `m`. -/
structure Answers (s : Chronicle) (y : Handled) (c : Called) (m : Message) : Prop where
  producer : ∃ n task, s.cluster.nodes[c.node]? = some n ∧ n.role = .producer task ∧ n.name = m.producer
  request : m.producerId = c.id ∧ m.payload = c.request.payload ∧ c.question ∈ s.sent
  accepted : .accepted m.request ∈ marks s.turns
  /-- The copy under the id that the handler answered is of `m`, and of no other message. -/
  consumer : ∃ n consumer handler ended, s.cluster.nodes[y.node]? = some n ∧
    n.role = .consumer consumer handler ended ∧ ∀ m', .copied ⟨n.name, y.id⟩ m' ∈ marks s.turns ↔ m' = m
  payload : y.payload = m.payload
  answer : y.answer = some c.answer ∧ c.answer ≠ []

/-- Turn `t` forwarded the answer of `y` to `c`. -/
structure Forwards (s : Chronicle) (t : Broker.Turn) (y : Handled) (c : Called) : Prop where
  mem : t ∈ s.turns
  sent : ∃ x, t.sent = [x] ∧ x.datagram? = some c.datagram
  answered : ∃ n o, s.cluster.nodes[y.node]? = some n ∧ .answered ⟨n.name, y.id⟩ (some o) ∈ t.marks

section
variable {mode : DispatchMode} {commands : Catalogue} {maxAttempts : UInt32} {s : Chronicle}

/-! ## Names and connections -/

theorem Sound.node_of_identity {start : Broker} (h : Sound start s) {i : Nat} {a : Address} {p : Bool}
    (hi : s.cluster.identities[i]? = some (a, p)) :
    ∃ n, s.cluster.nodes[i]? = some n ∧ n.name = a ∧
      (p = true → ∃ task, n.role = .producer task) ∧
      (p = false → ∃ consumer handler ended, n.role = .consumer consumer handler ended) := by
  rw [identities, List.getElem?_map] at hi
  obtain ⟨n, hn, he⟩ := Option.map_eq_some_iff.mp hi
  obtain ⟨rfl, rfl⟩ := Prod.mk.inj he
  obtain ⟨-, hrole⟩ := h.wired.nodes i n hn
  refine ⟨n, hn, rfl, fun hp => ?_, fun hp => ?_⟩
  · cases hr : n.role with
    | producer task => exact ⟨task, rfl⟩
    | _ => rw [hr] at hp; cases hp
  · cases hr : n.role with
    | consumer consumer handler ended => exact ⟨consumer, handler, ended, rfl⟩
    | producer task => rw [hr] at hp; cases hp
    | _ => rw [hr] at hrole; cases hrole

theorem Sound.far_of_turn (h : Sound (.fresh mode commands maxAttempts) s) {t : Broker.Turn} (ht : t ∈ s.turns)
    {x : Sending} (hx : x ∈ t.sent) : s.cluster.Far x.endpoint := by
  obtain ⟨ho, past, future, hs, hr⟩ := h.run.of_mem ht
  refine far_of_sent hr ho (fun t' ht' e he => h.met t' ?_ e he) hx
  rw [hs]
  rcases List.mem_append.mp ht' with ht' | ht'
  · exact List.mem_append_left _ ht'
  · rw [List.mem_singleton.mp ht']; simp

theorem Sound.sent_of_turn (h : Sound (.fresh mode commands maxAttempts) s) {t : Broker.Turn} (ht : t ∈ s.turns)
    {x : Sending} (hx : x ∈ t.sent) {id : UInt32} (hr : x.result = .ok id) :
    ⟨x.endpoint.connection, .far, id, x.data⟩ ∈ s.sent := by
  have hfar := (h.far_of_turn ht hx).1
  have hd : ⟨x.endpoint.connection, .far, id, x.data⟩ ∈ (s.turns.flatMap (·.sent)).filterMap (·.datagram?) :=
    mem_datagrams.mpr ⟨x, List.mem_flatMap.mpr ⟨t, ht, hx⟩, id, hr, by rw [hfar]⟩
  rw [← h.far] at hd
  exact (List.mem_filter.mp hd).1

/-- Only consumers say hello. -/
theorem Sound.not_producer_of_hello {start : Broker} (h : Sound start s) {t : Broker.Turn} (ht : t ∈ s.turns)
    {e : Endpoint} {id : UInt32} {r : Except Failure Inbound} (ho : t.outcome = .read e id hello r)
    {a : Address} {p : Bool} (hi : s.cluster.identities[e.connection]? = some (a, p)) : p = false := by
  have hm := h.carries.mem_sent (h.read t ht e id hello r ho)
  obtain ⟨a', p', hi', hp, -⟩ := h.near _ hm rfl
  obtain ⟨-, rfl⟩ := Prod.mk.inj (Option.some.inj (hi.symm.trans hi'))
  cases p with
  | false => rfl
  | true => exact absurd rfl (hp rfl)

/-! ## Copies -/

/-- No two copies have one delivery. -/
theorem Sound.copied_nodup (h : Sound (.fresh mode commands maxAttempts) s) (hf : Network.Few s.sent) :
    ((copied (marks s.turns)).map (·.1)).Nodup := by
  refine List.Nodup.sublist (Broker.copied_sublist s.turns) ?_
  have hk : (((s.turns.flatMap (·.sent)).filterMap (·.datagram?)).map Datagram.key).Nodup := by
    rw [← h.far]
    exact (h.carries.sent_nodup hf).sublist (List.filter_sublist.map _)
  rw [List.Nodup, List.pairwise_map, List.pairwise_filterMap] at hk
  rw [List.Nodup, List.pairwise_filterMap]
  refine hk.imp_of_mem fun {x x'} hx hx' hne d hd d' hd' hdd => ?_
  subst hdd
  obtain ⟨t, ht, hxt⟩ := List.mem_flatMap.mp hx
  obtain ⟨t', ht', hxt'⟩ := List.mem_flatMap.mp hx'
  obtain ⟨hr, ha⟩ := Sending.delivery?_eq_some.mp hd
  obtain ⟨hr', ha'⟩ := Sending.delivery?_eq_some.mp hd'
  have he := h.wired.far_eq (h.far_of_turn ht hxt) (h.far_of_turn ht' hxt') (ha.trans ha'.symm)
  have hx := Sending.datagram?_eq_some.mpr ⟨d.id, hr, rfl⟩
  have hx' := Sending.datagram?_eq_some.mpr ⟨d.id, hr', rfl⟩
  refine hne _ hx _ hx' ?_
  rw [Datagram.key, Datagram.key, he]

/-- A copy was sent over the connection of its consumer. -/
theorem Sound.sent_of_copied (h : Sound (.fresh mode commands maxAttempts) s) {d : Delivery} {m : Message}
    (hm : .copied d m ∈ marks s.turns) {e : Endpoint} (he : s.cluster.Far e) (ha : e.address = d.consumer) :
    ⟨e.connection, .far, d.id, m.payload⟩ ∈ s.sent := by
  obtain ⟨t, ht, hmt⟩ := List.mem_flatMap.mp hm
  have hc := mem_copied.mpr hmt
  rw [Broker.copied_turn] at hc
  simp only [List.mem_flatMap, Option.mem_toList, List.mem_map, Prod.mk.injEq] at hc
  obtain ⟨m', hf, d', hd, rfl, rfl⟩ := hc
  obtain ⟨ho, past, future, -, hr⟩ := h.run.of_mem ht
  cases ho with
  | @passed b b' sent p hp =>
    obtain ⟨x, hx, hxd⟩ := List.mem_filterMap.mp hd
    obtain ⟨m'', hf', hdata⟩ := hp.data hx
    obtain rfl : m'' = m' := Option.some.inj (hf'.symm.trans hf)
    obtain ⟨hres, hxa⟩ := Sending.delivery?_eq_some.mp hxd
    have hsent := h.sent_of_turn ht hx hres
    rw [← h.wired.far_eq he (h.far_of_turn ht hx) (ha.trans hxa.symm)] at hsent
    rw [← hdata]
    exact hsent
  | _ => cases hf

/-- An accepted request was sent by the producer that it names. -/
theorem Sound.sent_of_accepted (h : Sound (.fresh mode commands maxAttempts) s) {m : Message}
    (hm : .accepted m ∈ marks s.turns) {e : Endpoint} (he : s.cluster.Far e) (ha : e.address = m.producer) :
    ⟨e.connection, .near, m.producerId, m.payload⟩ ∈ s.sent := by
  obtain ⟨t, ht, hmt⟩ := List.mem_flatMap.mp hm
  have hq : t.enqueued? = some m := by
    simpa [Broker.Turn.marks] using hmt
  unfold Broker.Turn.enqueued? at hq
  split at hq
  · next e' id data seq ho =>
    obtain rfl := Option.some.inj hq
    have hfar := h.met t ht e' (by rw [Broker.Turn.endpoint?, ho])
    rw [h.wired.far_eq he hfar ha]
    exact h.carries.mem_sent (h.read t ht e' id data _ ho)
  · cases hq

/-! ## From the callback to the handler -/

/-- Turn `t` read the answer under `n` from `e`, and sent it as `x` to the producer of `c`. -/
structure Passage (s : Chronicle) (c : Called) (t : Broker.Turn) (x : Sending) (e : Endpoint) (n : UInt32) :
    Prop where
  turn : t ∈ s.turns
  sent : t.sent = [x]
  datagram : x.datagram? = some c.datagram
  producer : s.cluster.Far x.endpoint
  far : s.cluster.Far e
  consumer : s.cluster.identities[e.connection]? = some (e.address, false)
  read : ∃ id, ⟨e.connection, .near, id, Packet.encode ⟨n, c.answer⟩⟩ ∈ s.sent
  not_hello : Packet.encode ⟨n, c.answer⟩ ≠ hello
  answered : .answered ⟨e.address, n⟩ (some ⟨x.endpoint.address, c.id⟩) ∈ t.marks

theorem Sound.passage_of_called (h : Sound (.fresh mode commands maxAttempts) s) {c : Called}
    (hc : c ∈ s.called) : ∃ t x e n, s.Passage c t x e n := by
  have htaken : c.datagram ∈ s.taken := h.called.subset (List.mem_map_of_mem hc)
  have hsent : c.datagram ∈ s.sent.filter (·.side = .far) :=
    List.mem_filter.mpr ⟨h.carries.mem_sent htaken, rfl⟩
  rw [h.far] at hsent
  obtain ⟨x, hx, id, hid, hd⟩ := mem_datagrams.mp hsent
  obtain ⟨t, ht, hxt⟩ := List.mem_flatMap.mp hx
  obtain ⟨hconn, -, -, hdata⟩ := Datagram.mk.inj hd
  obtain ⟨-, a, hprod⟩ := h.asked c hc
  obtain ⟨ho, past, future, hs, hr⟩ := h.run.of_mem ht
  -- nothing else is sent to a producer
  have silent : ∀ {t' : Broker.Turn} {id : UInt32} {r : Except Failure Inbound}, t' ∈ s.turns →
      t'.outcome ≠ .read x.endpoint id hello r := by
    intro t' id r ht' ho'
    rw [hconn] at hprod
    cases h.not_producer_of_hello ht' ho' hprod
  have older : ∀ {t' : Broker.Turn}, t' ∈ past → t' ∈ s.turns := by
    intro t' ht'
    rw [hs]
    exact List.mem_append_left _ ht'
  cases ho.source (hr.sound (Broker.sound_fresh mode commands maxAttempts)) hxt with
  | acknowledged ho' => exact absurd ho' (silent ht)
  | copied ho' hf he hd =>
    obtain ⟨t', ht', id', r, ho'⟩ := hr.entries he
    exact absurd ho' (silent (older ht'))
  | @answered e id' n a' r o ho' hh hcon hp hxd hone hmark =>
    rw [hxd] at hdata
    obtain ⟨hreq, rfl⟩ : c.id = o.id ∧ c.answer = a' := by
      have hpk := congrArg Packet.decode hdata
      rw [Packet.decode_encode, Packet.decode_encode] at hpk
      exact Packet.mk.inj (Except.ok.inj hpk)
    have hefar := h.met t ht e (by rw [Broker.Turn.endpoint?, ho'])
    -- only consumers are registered
    obtain ⟨e', hea, t', ht', id'', r', ho''⟩ := hr.registered hcon
    obtain rfl := h.wired.far_eq (h.met t' (older ht') e' (by rw [Broker.Turn.endpoint?, ho''])) hefar hea
    obtain ⟨p, hident⟩ := hefar.2
    obtain rfl := h.not_producer_of_hello (older ht') ho'' hident
    refine ⟨t, x, e', n, ht, hone, Sending.datagram?_eq_some.mpr ⟨id, hid, hd⟩, h.far_of_turn ht hxt, hefar,
      hident, ⟨id', h.carries.mem_sent (h.read t ht e' id' _ r ho')⟩, hh, ?_⟩
    rw [hreq, (hr.peers hp).1]
    exact hmark (by rw [hid]; rfl)

theorem Sound.handled_of_answer {start : Broker} (h : Sound start s) {i : Nat} {id n : UInt32} {a : Bytes}
    {name : Address} (hi : s.cluster.identities[i]? = some (name, false))
    (hs : ⟨i, .near, id, Packet.encode ⟨n, a⟩⟩ ∈ s.sent) (hh : Packet.encode ⟨n, a⟩ ≠ hello)
    (hn : n.toNat < 2 ^ 30) :
    ∃ y ∈ s.handled, y.node = i ∧ y.id = n ∧ y.answer = some a ∧ a ≠ [] := by
  obtain ⟨name', p, hi', -, hposted⟩ := h.near _ hs rfl
  obtain ⟨-, rfl⟩ := Prod.mk.inj (Option.some.inj (hi.symm.trans hi'))
  rcases hposted rfl with hd | ⟨m, hd⟩ | ⟨y, hy, hyi, answer, hya, hne, hd⟩
  · exact absurd hd hh
  · have hle := Control.le_id m (p := ⟨n, a⟩) (by rw [← show _ = m.toBytes from hd, Packet.decode_encode])
    exact absurd hn (Nat.not_lt_of_le hle)
  · have hpk := congrArg Packet.decode (show Packet.encode ⟨n, a⟩ = Packet.encode ⟨y.id, answer⟩ from hd)
    rw [Packet.decode_encode, Packet.decode_encode] at hpk
    obtain ⟨rfl, rfl⟩ := Packet.mk.inj (Except.ok.inj hpk)
    exact ⟨y, hy, hyi, rfl, hya, hne⟩

theorem Sound.copied_iff (h : Sound (.fresh mode commands maxAttempts) s) (hf : Network.Few s.sent)
    {d : Delivery} {m : Message} (hm : .copied d m ∈ marks s.turns) (m' : Message) :
    .copied d m' ∈ marks s.turns ↔ m' = m := by
  constructor
  · intro hm'
    have heq := List.inj_on_of_nodup_map (h.copied_nodup hf) (mem_copied.mpr hm') (mem_copied.mpr hm) rfl
    exact (Prod.mk.inj heq).2
  · rintro rfl
    exact hm

/-- A handler is given the payloads of copies. -/
theorem Sound.handled_payload (h : Sound (.fresh mode commands maxAttempts) s) (hf : Network.Few s.sent)
    {y : Handled} (hy : y ∈ s.handled) {e : Endpoint} (he : s.cluster.Far e) (hn : y.node = e.connection)
    {m : Message} (hm : .copied ⟨e.address, y.id⟩ m ∈ marks s.turns) : y.payload = m.payload := by
  have hyt : y.datagram ∈ s.taken := h.handled.subset (List.mem_map_of_mem hy)
  refine h.carries.data_eq hf (h.carries.mem_sent hyt) (h.sent_of_copied hm he rfl) ?_
  rw [Datagram.key, Datagram.key, Handled.datagram, hn]

/-- A request that was accepted has the payload that the producer keeps for it. -/
theorem Sound.called_payload (h : Sound (.fresh mode commands maxAttempts) s) (hf : Network.Few s.sent)
    {c : Called} (hc : c ∈ s.called) {e : Endpoint} (he : s.cluster.Far e) (hn : c.node = e.connection)
    {m : Message} (hm : .accepted m.request ∈ marks s.turns) (ho : m.origin = ⟨e.address, c.id⟩) :
    m.payload = c.request.payload := by
  obtain ⟨hp, hk⟩ := Origin.mk.inj ho
  refine h.carries.data_eq hf (h.sent_of_accepted hm he hp.symm) (h.asked c hc).1 ?_
  rw [Datagram.key, Datagram.key, Called.question, hn, ← hk]
  rfl

theorem Sound.answers (h : Sound (.fresh mode commands maxAttempts) s) (hf : Network.Few s.sent) {c : Called}
    (hc : c ∈ s.called) : ∃ y ∈ s.handled, ∃ m t, s.Answers y c m ∧ s.Forwards t y c := by
  obtain ⟨t, x, e, n, hp⟩ := h.passage_of_called hc
  -- the copy that the answer is for
  obtain ⟨past, future, hs, -, hout⟩ := h.run.outstanding_of_answered hp.turn hp.answered
  obtain ⟨m, hmo, hcopy, hacc⟩ := hout.copied_mem
  replace hcopy : .copied ⟨e.address, n⟩ m ∈ marks s.turns := by
    rw [hs]
    exact mem_marks_append hcopy _
  replace hacc : .accepted m.request ∈ marks s.turns := by
    rw [hs]
    exact mem_marks_append hacc _
  -- the handler that gave it
  obtain ⟨id, hread⟩ := hp.read
  obtain ⟨y, hy, hyn, rfl, hya, hne⟩ := h.handled_of_answer hp.consumer hread hp.not_hello
    (h.carries.id_lt hf (h.sent_of_copied hcopy hp.far rfl))
  obtain ⟨node, hnode, hname, -, hrole⟩ := h.node_of_identity hp.consumer
  obtain ⟨consumer, handler, ended, hrole⟩ := hrole rfl
  -- the request that it is for
  obtain ⟨hmp, hmk⟩ := Origin.mk.inj hmo
  obtain ⟨id', -, hcd⟩ := Sending.datagram?_eq_some.mp hp.datagram
  have hconn : c.node = x.endpoint.connection := (Datagram.mk.inj hcd).1
  obtain ⟨hq, a, ha⟩ := h.asked c hc
  obtain ⟨asker, hasker, -, hprod, -⟩ := h.node_of_identity ha
  obtain ⟨task, htask⟩ := hprod rfl
  have hap : asker.name = m.producer := by
    rw [hmp]
    exact hp.producer.name_eq (hconn ▸ hasker)
  rw [← hyn] at hnode
  rw [← hname] at hcopy
  refine ⟨y, hy, m, t, ⟨⟨asker, task, hasker, htask, hap⟩, ⟨hmk, ?_, hq⟩, hacc,
    ⟨node, consumer, handler, ended, hnode, hrole, h.copied_iff hf hcopy⟩, ?_, hya, hne⟩,
    hp.turn, ⟨x, hp.sent, hp.datagram⟩, ⟨node, ⟨x.endpoint.address, c.id⟩, hnode, ?_⟩⟩
  · exact h.called_payload hf hc hp.producer hconn hacc hmo
  · exact h.handled_payload hf hy hp.far hyn (hname ▸ hcopy)
  · rw [hname]
    exact hp.answered

/-! ## Distinct callbacks -/

theorem Sound.called_eq (h : Sound (.fresh mode commands maxAttempts) s) (hf : Network.Few s.sent) {y : Handled}
    {c c' : Called} {t t' : Broker.Turn} (hc : s.Forwards t y c) (hc' : s.Forwards t' y c') :
    c.datagram = c'.datagram := by
  obtain ⟨ht, ⟨x, hs, hx⟩, n, o, hn, hm⟩ := hc
  obtain ⟨ht', ⟨x', hs', hx'⟩, n', o', hn', hm'⟩ := hc'
  obtain rfl : n = n' := Option.some.inj (hn.symm.trans hn')
  have hsame : t = t' := by
    by_contra hne
    have hpw := h.run.answered_once (h.copied_nodup hf)
    have hsymm : Std.Symm fun t t' : Broker.Turn => ∀ d o o', .answered d (some o) ∈ t.marks →
        .answered d (some o') ∉ t'.marks := ⟨fun t t' hr d o o' h1 h2 => hr d o' o h2 h1⟩
    exact hpw.forall ht ht' hne _ o o' hm hm'
  subst hsame
  obtain rfl : x = x' := by
    rw [hs] at hs'
    exact List.singleton_inj.mp hs'
  exact Option.some.inj (hx.symm.trans hx')

/-- One datagram, one callback. -/
theorem Sound.called_inj {start : Broker} (h : Sound start s) (hf : Network.Few s.sent) {i j : Nat}
    {c c' : Called} (hi : s.called[i]? = some c) (hj : s.called[j]? = some c') (he : c.datagram = c'.datagram) : i = j := by
  have hn : ((s.called.map (·.datagram)).map Datagram.key).Nodup :=
    (h.carries.taken_nodup hf).sublist (h.called.map _)
  rw [List.map_map] at hn
  have hi' : (s.called.map (Datagram.key ∘ (·.datagram)))[i]? = some c.datagram.key := by
    rw [List.getElem?_map, hi]; rfl
  have hj' : (s.called.map (Datagram.key ∘ (·.datagram)))[j]? = some c.datagram.key := by
    rw [List.getElem?_map, hj, he]; rfl
  have hlt := (List.getElem?_eq_some_iff.mp hi').1
  exact (List.getElem?_inj hlt hn).mp (hi'.trans hj'.symm)

/-- **Answer integrity.** All that a producer has told its callbacks and futures, by events, sweeps and
ticks, is that time is over or an answer on record, told to the one who waits for the request that it is
for; so whatever answer it sees is on record. Every callback that was run with an answer is matched with
the run of a handler that gave this answer, which is not empty, to a copy of the very request that the
callback was for; and no two callbacks are matched with one run. -/
theorem Reaches.answers_intact (hr : Reaches (start (.fresh mode commands maxAttempts)) s)
    (hf : Network.Few s.sent) : s.Balanced ∧
    (∀ i k answer, s.Sees i k answer → ∃ c ∈ s.called, c.node = i ∧ c.id = k ∧ c.answer = answer) ∧
    ∃ f : Nat → Nat,
      (∀ i c, s.called[i]? = some c → ∃ y m, s.handled[f i]? = some y ∧ s.Answers y c m) ∧
      ∀ i j, i < s.called.length → j < s.called.length → f i = f j → i = j := by
  refine ⟨hr.balanced, fun i k answer hs => hr.balanced.called_of_sees hs, ?_⟩
  have h := hr.sound
  have hone : ∀ i : Nat, ∃ k : Nat, ∀ c : Called, s.called[i]? = some c →
      ∃ y m t, s.handled[k]? = some y ∧ s.Answers y c m ∧ s.Forwards t y c := by
    intro i
    cases hc : s.called[i]? with
    | none => exact ⟨0, fun c hc' => by cases hc'⟩
    | some c =>
      obtain ⟨y, hy, m, t, ha, ht⟩ := h.answers hf (List.mem_of_getElem? hc)
      obtain ⟨k, hk⟩ := List.getElem?_of_mem hy
      refine ⟨k, fun c' hc' => ?_⟩
      obtain rfl := Option.some.inj hc'
      exact ⟨y, m, t, hk, ha, ht⟩
  choose f hall using hone
  refine ⟨f, fun i c hc => ?_, fun i j hi hj hij => ?_⟩
  · obtain ⟨y, m, -, hk, ha, -⟩ := hall i c hc
    exact ⟨y, m, hk, ha⟩
  · have hci := List.getElem?_eq_getElem hi
    have hcj := List.getElem?_eq_getElem hj
    obtain ⟨y, -, t, hk, -, ht⟩ := hall i _ hci
    obtain ⟨y', -, t', hk', -, ht'⟩ := hall j _ hcj
    rw [hij] at hk
    obtain rfl : y = y' := Option.some.inj (hk.symm.trans hk')
    exact h.called_inj hf hci hcj (h.called_eq hf ht ht')

end

/-- A worker echoes the requests of an asker, the first of which has expired by then. -/
theorem answers_intact_echo : ∃ s, Reaches (start (.fresh .direct)) s ∧ Network.Few s.sent ∧
    s.called.map (·.answer) = [[42]] ∧
    s.notices.map (fun x => (x.1, x.2.id, x.2.outcome.toOption)) = [(1, 1, none), (1, 2, some [42])] ∧
    s.Balanced ∧
    (∀ i k answer, s.Sees i k answer → ∃ c ∈ s.called, c.node = i ∧ c.id = k ∧ c.answer = answer) ∧
    ∃ f : Nat → Nat,
      (∀ i c, s.called[i]? = some c → ∃ y m, s.handled[f i]? = some y ∧ s.Answers y c m) ∧
      ∀ i j, i < s.called.length → j < s.called.length → f i = f j → i = j := by
  have h0 : Reaches (start (.fresh .direct)) _ :=
    Reaches.refl.next (.consumer "worker" [] (fun p => some p.payload) (by decide +kernel))
  have h1 := h0.next (.producer "asker" {} (by decide +kernel))
  have h2 := Reaches.follow [.deliver 0, .read 0, .read 0, .deliver 0] h1
    (Option.some_get (by decide +kernel)).symm
  have h3 := h2.next (.act (i := 1) rfl rfl (.request [41] (by decide) none () 0))
  have h4 := h3.next (.act (i := 1) rfl rfl (.sweep 5000))
  have h5 := h4.next (.act (i := 1) rfl rfl (.request [42] (by decide) none () 5000))
  have h6 := Reaches.follow [.read 1, .read 1, .read 1] h5 (Option.some_get (by decide +kernel)).symm
  have h7 := Reaches.follow [.deliver 0, .deliver 0, .read 0, .read 0, .deliver 1, .deliver 1, .deliver 1]
    ((h6.next .pass).next .pass) (Option.some_get (by decide +kernel)).symm
  refine ⟨_, h7, Network.few_of_length ?_, ?_, ?_, h7.answers_intact (Network.few_of_length ?_)⟩
  all_goals decide +kernel

end Chronicle

end Switchboard.Cluster
