import Switchboard.Proofs.Broker.Answers

/-!
# Where the broker's datagrams come from

Every peer and every consumer of a run was met by one of its turns. Every datagram acknowledges a hello,
is a copy for a registered consumer, or carries an answer to the producer of an outstanding copy. When no
two copies have one delivery, no two answers are forwarded for one either (`Run.answered_once`).
-/

namespace Switchboard.Broker

/-- The endpoint that an event came from. -/
def Turn.endpoint? (t : Turn) : Option Endpoint :=
  match t.outcome with
  | .connected e | .read e _ _ _ => some e
  | _ => none

/-! ## Peers and consumers -/

theorem get?_meet {b : Broker} {e e' : Endpoint} {a : Address} (h : (b.meet e).peers.get? a = some e') :
    b.peers.get? a = some e' ∨ (e = e' ∧ a = e.address) := by
  rw [meet_get?] at h
  split at h
  · next hc => exact .inr ⟨Option.some.inj h, hc.1⟩
  · exact .inl h

theorem Turn.Occurs.peers {t : Turn} (ht : t.Occurs) {a : Address} {e : Endpoint}
    (h : t.after.peers.get? a = some e) :
    t.before.peers.get? a = some e ∨ (t.endpoint? = some e ∧ a = e.address) := by
  cases ht with
  | connected b e' =>
    simp only [connect, Dictionary.get?_insert] at h
    split at h
    · next ha =>
      obtain rfl := Option.some.inj h
      exact .inr ⟨rfl, ha⟩
    · exact .inl h
  | disconnected b a' =>
    simp only [disconnect, Dictionary.get?_erase] at h
    split at h
    · cases h
    · exact .inl h
  | @read b b' e' id data sent r hr =>
    have same : (b.meet e').peers.get? a = some e := by
      cases hr with
      | @controlled p control => cases control <;> exact h
      | _ => exact h
    rcases get?_meet same with h | ⟨rfl, ha⟩
    · exact .inl h
    · exact .inr ⟨rfl, ha⟩
  | passed hp => cases hp <;> exact .inl h
  | resumed b => exact .inl h
  | recatalogued b commands => exact .inl h

theorem Turn.Occurs.entries {t : Turn} (ht : t.Occurs) {e : Endpoint} (h : e ∈ t.after.consumers.entries) :
    e ∈ t.before.consumers.entries ∨ ∃ id r, t.outcome = .read e id hello r := by
  cases ht with
  | disconnected b a => exact .inl (Roster.mem_of_mem_remove h)
  | @read b b' e' id data sent r hr =>
    cases hr with
    | registered hh hc r =>
      rcases List.mem_append.mp h with h | h
      · exact .inl h
      · rw [List.mem_singleton.mp h, hh]
        exact .inr ⟨id, _, rfl⟩
    | @controlled p control => cases control <;> exact .inl (by simpa [applyControl, wake] using h)
    | _ => exact .inl (by simpa using h)
  | passed hp => cases hp <;> exact .inl h
  | _ => exact .inl h

section
variable {mode : DispatchMode} {commands : Catalogue} {maxAttempts : UInt32} {turns : List Turn} {b : Broker}

theorem Run.peers (h : Run (fresh mode commands maxAttempts) turns b) : ∀ {a e}, b.peers.get? a = some e →
    e.address = a ∧ ∃ t ∈ turns, t.endpoint? = some e := by
  refine Run.induct (P := fun turns b => ∀ {a e}, b.peers.get? a = some e →
    e.address = a ∧ ∃ t ∈ turns, t.endpoint? = some e) (fun h => by cases h) (fun turns t _ ht ih => ?_) h
  intro a e hp
  rcases ht.peers hp with hp | ⟨he, ha⟩
  · obtain ⟨ha, t', ht', he⟩ := ih hp
    exact ⟨ha, t', List.mem_append_left _ ht', he⟩
  · exact ⟨ha.symm, t, by simp, he⟩

theorem Run.entries (h : Run (fresh mode commands maxAttempts) turns b) : ∀ {e}, e ∈ b.consumers.entries →
    ∃ t ∈ turns, ∃ id r, t.outcome = .read e id hello r := by
  refine Run.induct (P := fun turns b => ∀ {e}, e ∈ b.consumers.entries →
    ∃ t ∈ turns, ∃ id r, t.outcome = .read e id hello r) (fun h => by cases h) (fun turns t _ ht ih => ?_) h
  intro e he
  rcases ht.entries he with he | ⟨id, r, ho⟩
  · obtain ⟨t', ht', hr⟩ := ih he
    exact ⟨t', List.mem_append_left _ ht', hr⟩
  · exact ⟨t, by simp, id, r, ho⟩

theorem Run.registered (h : Run (fresh mode commands maxAttempts) turns b) {a : Address}
    (hc : b.consumers.contains a = true) :
    ∃ e, e.address = a ∧ ∃ t ∈ turns, ∃ id r, t.outcome = .read e id hello r := by
  have hs := h.sound (sound_fresh mode commands maxAttempts)
  obtain ⟨e, he, ha⟩ := List.mem_map.mp ((hs.roster.contains_iff a).mp hc)
  exact ⟨e, ha, h.entries he⟩

end

/-! ## What is sent -/

/-- Why a turn sends a datagram. -/
inductive Turn.Source (t : Turn) (s : Sending) : Prop
  | acknowledged {id : UInt32} {r : Except Failure Inbound} (ho : t.outcome = .read s.endpoint id hello r)
  | copied {p : Pass} {m : Message} (ho : t.outcome = .passed p) (hf : t.front? = some m)
      (hr : s.endpoint ∈ t.before.consumers.entries) (hd : s.data = m.payload)
  | answered {e : Endpoint} {id n : UInt32} {a : Bytes} {r : Except Failure Inbound} {o : Origin}
      (ho : t.outcome = .read e id (Packet.encode ⟨n, a⟩) r) (hh : Packet.encode ⟨n, a⟩ ≠ hello)
      (hc : t.before.consumers.contains e.address = true)
      (hp : t.before.peers.get? o.producer = some s.endpoint) (hd : s.data = Packet.encode ⟨o.id, a⟩) (hs : t.sent = [s])
      (hm : s.result.isOk = true → .answered ⟨e.address, n⟩ (some o) ∈ t.marks)

theorem Turn.Occurs.source {t : Turn} (ht : t.Occurs) (h : t.before.Sound) {s : Sending} (hs : s ∈ t.sent) :
    t.Source s := by
  cases ht with
  | @read b b' e id data sent r hr =>
    cases hr with
    | registered hh hc r =>
      rw [List.mem_singleton.mp hs]
      exact .acknowledged (by rw [hh])
    | @forwarded p o peer hh hc hp ho hn r =>
      rw [h.meet_eq hc] at hn
      have hd := Packet.encode_of_decode hp
      rw [List.mem_singleton.mp hs]
      refine .answered (n := p.id) (a := p.payload) (by rw [hd]) (by rw [hd]; exact hh) hc hn rfl rfl ?_
      intro hok
      cases r with
      | ok i =>
        dsimp only [Except.map]
        rw [marks_of_packet hh hc hp (fun seq hr => by cases hr)]
        exact List.mem_singleton.mpr rfl
      | error f => cases hok
    | duplicate | malformed | unreachable | controlled | unmatched | rejected | enqueued => cases hs
  | @passed b b' sent p hp =>
    obtain ⟨m, hf, hd⟩ := hp.data hs
    exact .copied rfl hf (hp.endpoints_sublist.subset (List.mem_map_of_mem hs)) hd
  | connected | disconnected | resumed | recatalogued => cases hs

/-! ## Copies -/

def Mark.copy? : Mark → Option (Delivery × Message)
  | copied d m => some (d, m)
  | accepted _ | answered _ _ => none

/-- The copies among the marks. -/
def copied (ms : List Mark) : List (Delivery × Message) := ms.filterMap (·.copy?)

theorem mem_copied {ms : List Mark} {d : Delivery} {m : Message} : (d, m) ∈ copied ms ↔ .copied d m ∈ ms := by
  constructor
  · intro h
    obtain ⟨x, hx, he⟩ := List.mem_filterMap.mp h
    cases x with
    | copied d' m' => cases he; exact hx
    | accepted m' => cases he
    | answered d' r => cases he
  · intro h
    exact List.mem_filterMap.mpr ⟨_, h, rfl⟩

theorem copied_append (ms ms' : List Mark) : copied (ms ++ ms') = copied ms ++ copied ms' :=
  List.filterMap_append

theorem copied_turn (t : Turn) :
    copied t.marks = t.front?.toList.flatMap fun m => t.deliveries.map fun d => (d, m) := by
  have h1 : copied (t.enqueued?.toList.map .accepted) = [] := by cases t.enqueued? <;> rfl
  have h2 : copied (t.answered?.toList.map fun a => .answered a.1 a.2) = [] := by cases t.answered? <;> rfl
  rw [Turn.marks, copied_append, copied_append, h1, h2, List.append_nil, List.nil_append]
  cases t.front? with
  | none => rfl
  | some m =>
    simp only [Option.toList_some, List.flatMap_cons, List.flatMap_nil, List.append_nil]
    unfold copied
    rw [List.filterMap_map, ← List.filterMap_eq_map]
    rfl

theorem deliveries_turn_sublist (t : Turn) : t.deliveries.Sublist (t.sent.filterMap (·.delivery?)) := by
  unfold Turn.deliveries
  split
  · exact List.Sublist.refl _
  · exact List.nil_sublist _

theorem copied_sublist : ∀ turns : List Turn, ((copied (marks turns)).map (·.1)).Sublist
    ((turns.flatMap (·.sent)).filterMap (·.delivery?))
  | [] => .slnil
  | t :: turns => by
    have ht : ((copied t.marks).map (·.1)).Sublist (t.sent.filterMap (·.delivery?)) := by
      rw [copied_turn]
      cases t.front? with
      | none => exact List.nil_sublist _
      | some m => simpa [Function.comp_def] using deliveries_turn_sublist t
    have : marks (t :: turns) = t.marks ++ marks turns := rfl
    rw [this, copied_append, List.map_append, List.flatMap_cons, List.filterMap_append]
    exact ht.append (copied_sublist turns)

/-- Behind an answer under `d`, only a later copy is outstanding. -/
theorem Outstanding.copied_after {past future : List Mark} {d : Delivery} {o : Origin} {r : Option Origin}
    (h : Outstanding (past ++ .answered d r :: future) d o) : ∃ m, .copied d m ∈ future := by
  obtain ⟨past', m, future', hs, -, -, hf⟩ := h
  rcases List.append_eq_append_iff.mp hs with ⟨xs, rfl, hx⟩ | ⟨xs, rfl, hx⟩
  · cases xs with
    | nil => cases (List.cons.inj hx).1
    | cons x xs =>
      refine ⟨m, ?_⟩
      rw [(List.cons.inj hx).2]
      simp
  · cases xs with
    | nil => cases (List.cons.inj hx).1
    | cons x xs =>
      refine absurd rfl (hf (.answered d r) ?_)
      rw [(List.cons.inj hx).2]
      simp

theorem Outstanding.copied_mem {ms : List Mark} {d : Delivery} {o : Origin} (h : Outstanding ms d o) :
    ∃ m, m.origin = o ∧ .copied d m ∈ ms ∧ .accepted m.request ∈ ms := by
  obtain ⟨past, m, future, rfl, ho, ha, -⟩ := h
  exact ⟨m, ho, by simp, List.mem_append_left _ ha⟩

section
variable {mode : DispatchMode} {commands : Catalogue} {maxAttempts : UInt32} {turns : List Turn} {b : Broker}

theorem Run.outstanding_of_answered (h : Run (fresh mode commands maxAttempts) turns b) {t : Turn}
    (ht : t ∈ turns) {d : Delivery} {o : Origin} (hm : .answered d (some o) ∈ t.marks) :
    ∃ past future, turns = past ++ t :: future ∧ t.marks = [.answered d (some o)] ∧
      Outstanding (marks past) d o := by
  obtain ⟨ho, past, future, hs, hr⟩ := h.of_mem ht
  obtain ⟨hone, hg⟩ := ho.forwarded hm
  exact ⟨past, future, hs, hone, (hr.follows.tracks d o).mp hg⟩

/-- While no two copies have one delivery, no two turns forward an answer for one. -/
theorem Run.answered_once (h : Run (fresh mode commands maxAttempts) turns b)
    (hn : ((copied (marks turns)).map (·.1)).Nodup) :
    turns.Pairwise fun t t' => ∀ d o o', .answered d (some o) ∈ t.marks → .answered d (some o') ∉ t'.marks := by
  revert hn
  refine Run.induct (P := fun turns _ => ((copied (marks turns)).map (·.1)).Nodup →
    turns.Pairwise fun t t' => ∀ d o o', .answered d (some o) ∈ t.marks → .answered d (some o') ∉ t'.marks)
    (fun _ => .nil) (fun turns t hr ht ih hn => ?_) h
  rw [marks_snoc, copied_append, List.map_append] at hn
  have hn' := hn.of_append_left
  refine List.pairwise_append.mpr ⟨ih hn', List.pairwise_singleton _ _, fun t' ht' t'' ht'' => ?_⟩
  obtain rfl := List.mem_singleton.mp ht''
  intro d o o' hm hm'
  obtain ⟨past, future, rfl, hone, hp⟩ := hr.outstanding_of_answered ht' hm
  have hlast := (hr.follows.tracks d o').mp (ht.forwarded hm').2
  have hsplit : marks (past ++ t' :: future) = marks past ++ .answered d (some o) :: marks future := by
    simp [marks, hone]
  rw [hsplit] at hlast hn'
  -- one copy is older than the first answer, and another one is younger
  obtain ⟨m, -, hc, -⟩ := hp.copied_mem
  obtain ⟨m', hc'⟩ := hlast.copied_after
  rw [copied_append, List.map_append] at hn'
  refine (List.nodup_append.mp hn').2.2 d ?_ d ?_ rfl
  · exact List.mem_map.mpr ⟨(d, m), mem_copied.mpr hc, rfl⟩
  · exact List.mem_map.mpr ⟨(d, m'), mem_copied.mpr (List.mem_cons_of_mem _ hc'), rfl⟩

end

end Switchboard.Broker
