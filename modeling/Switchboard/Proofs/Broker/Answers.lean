import Switchboard.Proofs.Broker.Runs
import Switchboard.Proofs.History
import Switchboard.Proofs.Packet

/-!
# Answers and the copies they are for

The marks of a run are what matters to the correlations: requests that are accepted, copies that are
delivered, and payloads that arrive under the id of a copy. `Outstanding` says of a copy, in terms of
the marks alone, that it can still be answered. The table of correlations is exactly the set of
outstanding copies, so that an answer is forwarded to the producer of the copy it is for, and once.
-/

namespace Switchboard.Broker

inductive Mark where
  | accepted (m : Message)
  | copied (d : Delivery) (m : Message)
  /-- A payload arrived from the consumer of `d` under its id, and went to the given producer. -/
  | answered (d : Delivery) (forwardedTo : Option Origin)

def Mark.delivery? : Mark → Option Delivery
  | accepted _ => none
  | copied d _ | answered d _ => some d

def forwardedTo : Except Failure Inbound → Option Origin
  | .ok (.forwarded producer id) => some ⟨producer, id⟩
  | _ => none

/-- The delivery that a packet from a registered consumer names, and where its payload went. -/
def Turn.answered? (t : Turn) : Option (Delivery × Option Origin) :=
  match t.outcome with
  | .read e _ data r =>
    if data ≠ hello ∧ t.before.consumers.contains e.address = true then
      match Packet.decode data with
      | .ok p => some (⟨e.address, p.id⟩, forwardedTo r)
      | .error _ => none
    else none
  | _ => none

def Turn.marks (t : Turn) : List Mark :=
  t.enqueued?.toList.map .accepted
    ++ t.front?.toList.flatMap (fun m => t.deliveries.map (.copied · m))
    ++ t.answered?.toList.map fun a => .answered a.1 a.2

def marks (turns : List Turn) : List Mark := turns.flatMap (·.marks)

/-- The last copy under `d` is of a request from `o`, and nothing has arrived under `d` since. -/
def Outstanding (ms : List Mark) (d : Delivery) (o : Origin) : Prop :=
  ∃ past m future, ms = past ++ .copied d m :: future ∧ m.origin = o ∧ .accepted m.request ∈ past ∧
    ∀ x ∈ future, x.delivery? ≠ some d

/-! ## One more mark -/

section
variable {ms : List Mark} {d : Delivery} {o : Origin}

theorem outstanding_nil : ¬ Outstanding [] d o := by
  rintro ⟨past, m, future, h, -⟩
  simp at h

theorem outstanding_snoc_of_ne {x : Mark} (hx : x.delivery? ≠ some d) :
    Outstanding (ms ++ [x]) d o ↔ Outstanding ms d o := by
  constructor
  · rintro ⟨past, m, future, h, ho, ha, hf⟩
    rcases snoc_split h with ⟨-, rfl⟩ | ⟨future', rfl, hms⟩
    · exact absurd rfl hx
    · exact ⟨past, m, future', hms, ho, ha, fun z hz => hf z (List.mem_append_left _ hz)⟩
  · rintro ⟨past, m, future, rfl, ho, ha, hf⟩
    refine ⟨past, m, future ++ [x], by simp, ho, ha, fun z hz => ?_⟩
    rcases List.mem_append.mp hz with hz | hz
    · exact hf z hz
    · rw [List.mem_singleton.mp hz]; exact hx

theorem outstanding_snoc_copied (m : Message) :
    Outstanding (ms ++ [.copied d m]) d o ↔ m.origin = o ∧ .accepted m.request ∈ ms := by
  constructor
  · rintro ⟨past, m', future, h, ho, ha, hf⟩
    rcases snoc_split h with ⟨rfl, hm⟩ | ⟨future', rfl, -⟩
    · obtain ⟨-, rfl⟩ := Mark.copied.inj hm
      exact ⟨ho, ha⟩
    · exact absurd rfl (hf (.copied d m) (by simp))
  · rintro ⟨ho, ha⟩
    exact ⟨ms, m, [], rfl, ho, ha, by simp⟩

theorem outstanding_snoc_answered (r : Option Origin) : ¬ Outstanding (ms ++ [.answered d r]) d o := by
  rintro ⟨past, m, future, h, -, -, hf⟩
  rcases snoc_split h with ⟨-, hm⟩ | ⟨future', rfl, -⟩
  · cases hm
  · exact absurd rfl (hf (.answered d r) (by simp))

end

/-! ## The table of correlations -/

/-- The table holds exactly the copies that are outstanding. -/
def Tracks (t : Correlations) (ms : List Mark) : Prop := ∀ d o, t.get? d = some o ↔ Outstanding ms d o

section
variable {t : Correlations} {ms : List Mark}

theorem Tracks.accepted (h : Tracks t ms) (m : Message) : Tracks t (ms ++ [.accepted m]) := fun d o => by
  rw [h d o, outstanding_snoc_of_ne (by simp [Mark.delivery?])]

theorem Tracks.copied (h : Tracks t ms) {m : Message} (ha : .accepted m.request ∈ ms) (d : Delivery) :
    Tracks (t.record d m.origin) (ms ++ [.copied d m]) := fun d' o => by
  simp only [Correlations.get?, Correlations.record, Dictionary.get?_insert]
  by_cases hd : d' = d
  · subst hd
    rw [outstanding_snoc_copied]
    simp [ha]
  · rw [outstanding_snoc_of_ne (by simpa [Mark.delivery?] using Ne.symm hd), ← h d' o]
    simp [hd, Correlations.get?]

theorem Tracks.answered (h : Tracks t ms) (d : Delivery) (r : Option Origin) :
    Tracks ⟨t.records.erase d⟩ (ms ++ [.answered d r]) := fun d' o => by
  simp only [Correlations.get?, Dictionary.get?_erase]
  by_cases hd : d' = d
  · subst hd
    simp [outstanding_snoc_answered]
  · rw [outstanding_snoc_of_ne (by simpa [Mark.delivery?] using Ne.symm hd), ← h d' o]
    simp [hd, Correlations.get?]

theorem Tracks.unanswered (h : Tracks t ms) {d : Delivery} (hd : t.get? d = none) (r : Option Origin) :
    Tracks t (ms ++ [.answered d r]) := fun d' o => by
  by_cases hdd : d' = d
  · subst hdd
    simp [hd, outstanding_snoc_answered]
  · rw [outstanding_snoc_of_ne (by simpa [Mark.delivery?] using Ne.symm hdd), h d' o]

theorem Tracks.recordAll {m : Message} : ∀ (sent : List Sending) {t : Correlations} {ms : List Mark},
    Tracks t ms → .accepted m.request ∈ ms →
      Tracks (t.recordAll m.origin sent) (ms ++ (sent.filterMap (·.delivery?)).map (.copied · m))
  | [], t, ms, h, _ => by simpa [Correlations.recordAll] using h
  | ⟨e, data, .ok id⟩ :: sent, t, ms, h, ha => by
    have ih := Tracks.recordAll sent (h.copied ha ⟨e.address, id⟩) (List.mem_append_left _ ha)
    simpa [Correlations.recordAll, Correlations.recordSent, Sending.delivery?] using ih
  | ⟨e, data, .error f⟩ :: sent, t, ms, h, ha => by
    have ih := Tracks.recordAll sent h ha
    simpa [Correlations.recordAll, Correlations.recordSent, Sending.delivery?] using ih

end

/-! ## The marks of a turn -/

section
variable {b b' : Broker} {sent : List Sending}

theorem marks_passed {p : Pass} {m : Message} {ms : List Message} (hq : b.queue.messages = m :: ms) :
    Turn.marks ⟨b, .passed p, sent, b'⟩ = (sent.filterMap (·.delivery?)).map (.copied · m) := by
  simp [Turn.marks, Turn.enqueued?, Turn.front?, Turn.deliveries, Turn.answered?, hq]

theorem marks_of_unregistered {e : Endpoint} {id : UInt32} {data : Bytes} {r : Except Failure Inbound}
    (h : data = hello ∨ b.consumers.contains e.address = false) :
    Turn.marks ⟨b, .read e id data r, sent, b'⟩ =
      (Turn.enqueued? ⟨b, .read e id data r, sent, b'⟩).toList.map .accepted := by
  have : ¬ (data ≠ hello ∧ b.consumers.contains e.address = true) := by
    rintro ⟨hh, hc⟩
    rcases h with h | h
    · exact hh h
    · rw [h] at hc; cases hc
  simp [Turn.marks, Turn.front?, Turn.answered?, if_neg this]

theorem marks_of_packet {e : Endpoint} {id : UInt32} {data : Bytes} {r : Except Failure Inbound} {p : Packet}
    (hh : data ≠ hello) (hc : b.consumers.contains e.address = true) (hp : Packet.decode data = .ok p)
    (hr : ∀ seq, r ≠ .ok (.enqueued seq)) :
    Turn.marks ⟨b, .read e id data r, sent, b'⟩ = [.answered ⟨e.address, p.id⟩ (forwardedTo r)] := by
  simp [Turn.marks, Turn.front?, Turn.answered?, enqueued?_eq_none hr, hh, hc, hp]

/-- The state of the broker agrees with the marks of its past. -/
structure Follows (ms : List Mark) (b : Broker) : Prop where
  tracks : Tracks b.answers ms
  queued : ∀ m ∈ b.queue.messages, .accepted m.request ∈ ms

theorem Follows.append {ms : List Mark} (h : Follows ms b) (hq : b'.queue = b.queue) {xs : List Mark}
    (ht : Tracks b'.answers (ms ++ xs)) : Follows (ms ++ xs) b' :=
  ⟨ht, fun m hm => List.mem_append_left _ (h.queued m (hq ▸ hm))⟩

theorem Follows.quiet {ms : List Mark} (h : Follows ms b) (hq : b'.queue = b.queue)
    (ha : b'.answers = b.answers) : Follows (ms ++ []) b' :=
  h.append hq (by rw [ha, List.append_nil]; exact h.tracks)

theorem Follows.passes {ms : List Mark} (h : Follows ms b) {p : Pass} (hp : Passes b sent p b') :
    Follows (ms ++ Turn.marks ⟨b, .passed p, sent, b'⟩) b' := by
  have keeps : ∀ {m : Message} {rest : List Message} {t : Correlations}, b.queue.messages = m :: rest →
      (t = b.answers.recordAll m.origin sent) →
      Tracks t (ms ++ Turn.marks ⟨b, .passed p, sent, b'⟩) := by
    intro m rest t hq ht
    rw [marks_passed hq, ht]
    exact h.tracks.recordAll _ (h.queued m (by rw [hq]; exact List.mem_cons_self ..))
  have older : ∀ {m : Message} {rest : List Message}, b.queue.messages = m :: rest → ∀ m' ∈ rest,
      .accepted m'.request ∈ ms := fun hq m' hm' => h.queued m' (by rw [hq]; exact List.mem_cons_of_mem _ hm')
  cases hp with
  | idle hi =>
    have : Turn.marks ⟨b, .passed .idle, [], b⟩ = [] := by
      simp [Turn.marks, Turn.enqueued?, Turn.deliveries, Turn.answered?]
    rw [this, List.append_nil]
    exact h
  | direct hm hq he r =>
    exact ⟨keeps hq rfl, fun m' hm' => List.mem_append_left _ (older hq m' hm')⟩
  | dispatched hm hq hs ha =>
    exact ⟨keeps hq rfl, fun m' hm' => List.mem_append_left _ (older hq m' hm')⟩
  | dropped hm hq hs ha hl =>
    exact ⟨keeps hq (Correlations.recordAll_of_refused _ ha).symm,
      fun m' hm' => List.mem_append_left _ (older hq m' hm')⟩
  | @stalled m rest sent hm hq hs ha hl =>
    refine ⟨keeps hq (Correlations.recordAll_of_refused _ ha).symm, fun m' hm' => List.mem_append_left _ ?_⟩
    rcases List.mem_cons.mp hm' with rfl | hm'
    · exact h.queued m (by rw [hq]; exact List.mem_cons_self ..)
    · exact older hq m' hm'

theorem Follows.reads {ms : List Mark} (h : Follows ms b) {e : Endpoint} {id : UInt32} {data : Bytes}
    {r : Except Failure Inbound} (hr : Reads b e id data sent r b') :
    Follows (ms ++ Turn.marks ⟨b, .read e id data r, sent, b'⟩) b' := by
  cases hr with
  | duplicate hh hc =>
    rw [marks_of_unregistered (.inl hh)]
    exact h.append (by simp) (by simpa [Turn.enqueued?] using h.tracks)
  | registered hh hc r =>
    rw [marks_of_unregistered (.inl hh)]
    exact h.append (by simp) (by simpa [Turn.enqueued?] using h.tracks)
  | @malformed f hh hc hp =>
    have : Turn.marks ⟨b, .read e id data (if data = apiHandshake then .ok .apiHandshake else .error f),
        [], b.meet e⟩ = [] := by
      split <;> simp [Turn.marks, Turn.enqueued?, Turn.front?, Turn.answered?, hp]
    rw [this]
    exact h.append (by simp) (by simpa using h.tracks)
  | unreachable hh hc hp ho hn =>
    rw [marks_of_packet hh hc hp (by simp)]
    exact h.append (by simp) (h.tracks.answered _ _)
  | forwarded hh hc hp ho hn r =>
    rw [marks_of_packet hh hc hp (by cases r <;> simp [Except.map])]
    exact h.append (by simp) (h.tracks.answered _ _)
  | @controlled p control hh hc hp ho hm hk =>
    rw [marks_of_packet hh hc hp (by cases control <;> simp [applyControl])]
    refine h.append (by cases control <;> simp [applyControl, wake]) ?_
    have := h.tracks.unanswered ho (forwardedTo (.ok ((b.meet e).applyControl e.address control).1))
    cases control <;> simpa [applyControl, wake] using this
  | unmatched hh hc hp ho hk =>
    rw [marks_of_packet hh hc hp (by simp)]
    exact h.append (by simp) (by simpa using h.tracks.unanswered ho _)
  | rejected hh hc ha =>
    rw [marks_of_unregistered (.inr hc)]
    exact h.append (by simp) (by simpa [Turn.enqueued?] using h.tracks)
  | enqueued hh hc ha =>
    rw [marks_of_unregistered (.inr hc)]
    refine ⟨by simpa [Turn.enqueued?] using h.tracks.accepted _, fun m hm => ?_⟩
    rcases List.mem_append.mp hm with hm | hm
    · exact List.mem_append_left _ (h.queued m hm)
    · rw [List.mem_singleton.mp hm]
      simp [Turn.enqueued?, Message.request]

/-- Only an answer to a recorded copy is forwarded, to where the record says, and nothing else is sent. -/
theorem Reads.of_forwarded {e : Endpoint} {id : UInt32} {data : Bytes} {r : Except Failure Inbound}
    (hr : Reads b e id data sent r b') {o : Origin} (ho : forwardedTo r = some o) :
    data ≠ hello ∧ b.consumers.contains e.address = true ∧ ∃ p peer i, Packet.decode data = .ok p ∧
      b.answers.get? ⟨e.address, p.id⟩ = some o ∧ (b.meet e).peers.get? o.producer = some peer ∧
      sent = [⟨peer, Packet.encode ⟨o.id, p.payload⟩, .ok i⟩] := by
  cases hr with
  | malformed hh hc hp => split at ho <;> cases ho
  | @forwarded p o' peer hh hc hp hg hn r =>
    cases r with
    | ok i =>
      cases ho
      exact ⟨hh, hc, p, peer, i, hp, hg, hn, rfl⟩
    | error f => cases ho
  | @controlled p control hh hc hp hg hm hk => cases control <;> cases ho
  | _ => cases ho

theorem Turn.Occurs.forwarded {t : Turn} (ht : t.Occurs) {d : Delivery} {o : Origin}
    (h : .answered d (some o) ∈ t.marks) :
    t.marks = [.answered d (some o)] ∧ t.before.answers.get? d = some o := by
  cases ht with
  | connected | disconnected | resumed | recatalogued => cases (h : _ ∈ ([] : List Mark))
  | passed hp => simp [Turn.marks, Turn.enqueued?, Turn.answered?] at h
  | @read b b' e id data sent r hr =>
    have hmem : (d, some o) ∈ (Turn.answered? ⟨b, .read e id data r, sent, b'⟩).toList := by
      simpa [Turn.marks, Turn.front?] using h
    have hf : forwardedTo r = some o := by
      simp only [Turn.answered?, Option.mem_toList] at hmem
      split at hmem
      · split at hmem
        · exact (Prod.mk.inj (Option.some.inj hmem)).2
        · cases hmem
      · cases hmem
    obtain ⟨hh, hc, p, -, -, hp, hg, -⟩ := hr.of_forwarded hf
    have hm : Turn.marks ⟨b, .read e id data r, sent, b'⟩ = [.answered ⟨e.address, p.id⟩ (some o)] := by
      rw [marks_of_packet hh hc hp (fun seq hs => by rw [hs] at hf; cases hf), hf]
    rw [hm] at h
    obtain ⟨rfl, -⟩ := Mark.answered.inj (List.mem_singleton.mp h)
    exact ⟨hm, hg⟩

theorem Turn.Occurs.follows {t : Turn} (ht : t.Occurs) {ms : List Mark} (h : Follows ms t.before) :
    Follows (ms ++ t.marks) t.after := by
  cases ht with
  | connected b e => exact (h.quiet rfl rfl : Follows (ms ++ []) (b.connect e))
  | disconnected b a => exact (h.quiet rfl rfl : Follows (ms ++ []) (b.disconnect a))
  | resumed b => exact (h.quiet rfl rfl : Follows (ms ++ []) { b with woken := false })
  | recatalogued b commands => exact (h.quiet rfl rfl : Follows (ms ++ []) { b with commands })
  | read hr => exact h.reads hr
  | passed hp => exact h.passes hp

end

/-! ## Runs -/

section
variable {mode : DispatchMode} {commands : Catalogue} {maxAttempts : UInt32} {turns : List Turn} {b : Broker}

theorem marks_snoc (turns : List Turn) (t : Turn) : marks (turns ++ [t]) = marks turns ++ t.marks := by
  simp [marks]

theorem mem_marks_append {past : List Turn} {x : Mark} (h : x ∈ marks past) (future : List Turn) :
    x ∈ marks (past ++ future) := by
  rw [marks, List.flatMap_append]
  exact List.mem_append_left _ h

theorem Run.follows (h : Run (fresh mode commands maxAttempts) turns b) : Follows (marks turns) b := by
  refine Run.induct (P := fun turns b => Follows (marks turns) b) ?_ (fun turns t _ ht ih => ?_) h
  · refine ⟨fun d o => ?_, fun m hm => by cases hm⟩
    exact ⟨fun hg => (by cases hg), fun ho => absurd ho outstanding_nil⟩
  · rw [marks_snoc]
    exact ht.follows ih

/-- Whatever is forwarded answers a copy that was outstanding just before. -/
theorem Run.outstanding_of_forwarded (h : Run (fresh mode commands maxAttempts) turns b) :
    ∀ {j : Nat} {d : Delivery} {o : Origin}, (marks turns)[j]? = some (.answered d (some o)) →
      Outstanding ((marks turns).take j) d o := by
  refine Run.induct (P := fun turns _ => ∀ {j : Nat} {d : Delivery} {o : Origin},
    (marks turns)[j]? = some (.answered d (some o)) → Outstanding ((marks turns).take j) d o)
    (fun hj => by simp [marks] at hj) (fun turns t hr ht ih => ?_) h
  intro j d o hj
  rw [marks_snoc] at hj ⊢
  rcases Nat.lt_or_ge j (marks turns).length with hl | hl
  · rw [List.getElem?_append_left hl] at hj
    rw [List.take_append_of_le_length (Nat.le_of_lt hl)]
    exact ih hj
  · rw [List.getElem?_append_right hl] at hj
    obtain ⟨hm, hg⟩ := ht.forwarded (List.mem_of_getElem? hj)
    have hz : j = (marks turns).length := by
      rw [hm] at hj
      obtain ⟨hlt, -⟩ := List.getElem?_eq_some_iff.mp hj
      simp at hlt; omega
    subst hz
    rw [List.take_left]
    exact (hr.follows.tracks d o).mp hg

/-! ## Which copy an answer is for -/

/-- Mark `j` is an answer, forwarded, to the copy of mark `i`. -/
def AnswerTo (ms : List Mark) (i j : Nat) : Prop :=
  ∃ d m o, ms[i]? = some (.copied d m) ∧ ms[j]? = some (.answered d (some o)) ∧ o = m.origin ∧ i < j ∧
    ∀ k m', i < k → k < j → ms[k]? ≠ some (.copied d m')

/-- The marks in front of `j` end with the last copy under `d`, and nothing under `d` behind it. -/
theorem Outstanding.last_copy {ms : List Mark} {j : Nat} {d : Delivery} {o : Origin}
    (h : Outstanding (ms.take j) d o) :
    ∃ i m, i < j ∧ ms[i]? = some (.copied d m) ∧ m.origin = o ∧
      ∀ k x, i < k → k < j → ms[k]? = some x → x.delivery? ≠ some d := by
  obtain ⟨past, m, future, hs, ho, -, hf⟩ := h
  have hlen : past.length < (ms.take j).length := by rw [hs]; simp
  have hi : past.length < j := by simp at hlen; omega
  have at_lt : ∀ k, k < j → ms[k]? = (ms.take j)[k]? := fun k hk => (List.getElem?_take_of_lt hk).symm
  refine ⟨past.length, m, hi, ?_, ho, fun k x hk hj hx => hf x ?_⟩
  · rw [at_lt _ hi, hs]; simp
  · rw [at_lt _ hj, hs, List.getElem?_append_right (Nat.le_of_lt hk)] at hx
    obtain ⟨l, hl⟩ : ∃ l, k - past.length = l + 1 := ⟨k - past.length - 1, by omega⟩
    rw [hl, List.getElem?_cons_succ] at hx
    exact List.mem_of_getElem? hx

theorem Run.exists_answerTo (h : Run (fresh mode commands maxAttempts) turns b) {j : Nat} {d : Delivery}
    {o : Origin} (hj : (marks turns)[j]? = some (.answered d (some o))) : ∃ i, AnswerTo (marks turns) i j := by
  obtain ⟨i, m, hi, hc, ho, hf⟩ := (h.outstanding_of_forwarded hj).last_copy
  exact ⟨i, d, m, o, hc, hj, ho.symm, hi, fun k m' hk hkj hx => hf k _ hk hkj hx rfl⟩

theorem Run.answerTo_lt (h : Run (fresh mode commands maxAttempts) turns b) {i j j' : Nat}
    (hj : AnswerTo (marks turns) i j) (hj' : AnswerTo (marks turns) i j') : ¬ j < j' := by
  intro hlt
  obtain ⟨d, m, o, hc, ha, -, hij, -⟩ := hj
  obtain ⟨d', m', o', hc', ha', -, -, hno⟩ := hj'
  obtain ⟨rfl, -⟩ := Mark.copied.inj (Option.some.inj (hc.symm.trans hc'))
  obtain ⟨l, m'', hl, hcl, -, hf⟩ := (h.outstanding_of_forwarded ha').last_copy
  -- no copy is later than `i`, so the answer at `j` stands behind the last one
  have hle : l ≤ i := by
    rcases Nat.lt_or_ge i l with hil | hil
    · exact absurd hcl (hno l m'' hil hl)
    · exact hil
  exact hf j _ (by omega) hlt ha rfl

end

/-! ## Forwarding -/

theorem Sound.meet_eq {b : Broker} (h : b.Sound) {e : Endpoint} (hc : b.consumers.contains e.address = true) :
    b.meet e = b := by
  obtain ⟨e', he⟩ := h.known _ hc
  exact meet_of_known he

section
variable {ω : Type} {b : Broker} {e : Endpoint}

theorem Sound.forwarded_iff (h : b.Sound) (hc : b.consumers.contains e.address = true) (c : Carrier ω) (w : ω)
    (id : UInt32) (data : Bytes) (o : Origin) :
    (handleData c b e id data w).1 = .ok (.forwarded o.producer o.id) ↔
      data ≠ hello ∧ ∃ n a peer, data = Packet.encode ⟨n, a⟩ ∧ b.answers.get? ⟨e.address, n⟩ = some o ∧
        b.peers.get? o.producer = some peer ∧
        (c.send w peer (Packet.encode ⟨o.id, a⟩)).1.isOk = true := by
  obtain ⟨sent, r, b', w', hs, hd, -, hr⟩ := handleData_reads c b e id data w
  rw [hd]
  dsimp only
  constructor
  · intro ho
    obtain ⟨hh, -, p, peer, i, hp, hg, hn, rfl⟩ := hr.of_forwarded (o := o) (by rw [ho]; rfl)
    rw [h.meet_eq hc] at hn
    refine ⟨hh, p.id, p.payload, peer, (Packet.encode_of_decode hp).symm, hg, hn, ?_⟩
    rw [← hs.result]
    rfl
  · rintro ⟨hh, n, a, peer, rfl, hg, hn, hok⟩
    have hp : Packet.decode (Packet.encode ⟨n, a⟩) = .ok ⟨n, a⟩ := Packet.decode_encode _
    cases hr with
    | @forwarded p' o' peer' _ _ hp' hg' hn' r =>
      obtain rfl := Except.ok.inj (hp.symm.trans hp')
      obtain rfl : o = o' := Option.some.inj (hg.symm.trans hg')
      rw [h.meet_eq hc] at hn'
      obtain rfl := Option.some.inj (hn.symm.trans hn')
      rw [← hs.result] at hok
      cases r with
      | ok i => rfl
      | error f => cases hok
    | duplicate hh' | registered hh' => exact absurd hh' hh
    | malformed _ _ hp' => rw [hp] at hp'; cases hp'
    | unreachable _ _ hp' hg' hn' =>
      obtain rfl := Except.ok.inj (hp.symm.trans hp')
      obtain rfl := Option.some.inj (hg.symm.trans hg')
      rw [h.meet_eq hc, hn] at hn'; cases hn'
    | controlled _ _ hp' hg' | unmatched _ _ hp' hg' =>
      obtain rfl := Except.ok.inj (hp.symm.trans hp')
      rw [hg] at hg'; cases hg'
    | rejected _ hc' | enqueued _ hc' => rw [hc] at hc'; cases hc'

/-- An answer that is forwarded is the only thing that is sent. -/
theorem Sound.sent_of_forwarded (h : b.Sound) (hc : b.consumers.contains e.address = true) (c : Carrier ω)
    (w : ω) (id : UInt32) (data : Bytes) (o : Origin)
    (ho : (handleData c b e id data w).1 = .ok (.forwarded o.producer o.id)) :
    ∃ n a peer i, data = Packet.encode ⟨n, a⟩ ∧ b.peers.get? o.producer = some peer ∧
      (b.turn c w (.data e id data)).sent = [⟨peer, Packet.encode ⟨o.id, a⟩, .ok i⟩] := by
  obtain ⟨sent, r, b', w', hs, hd, hrec, hr⟩ := handleData_reads c b e id data w
  rw [hd] at ho
  dsimp only at ho
  have hsent : (b.turn c w (.data e id data)).sent = sent := by simp [turn, hrec]
  obtain ⟨-, -, p, peer, i, hp, -, hn, rfl⟩ := hr.of_forwarded (o := o) (by rw [ho]; rfl)
  rw [h.meet_eq hc] at hn
  exact ⟨p.id, p.payload, peer, i, (Packet.encode_of_decode hp).symm, hn, hsent⟩

end

/-- **Exact correlation.** The table is the set of outstanding copies; a payload from a consumer is
forwarded exactly when it answers one of them and its producer can be reached, as the one datagram that
is sent; and no copy is answered twice. -/
theorem Run.correlates_exactly {mode : DispatchMode} {commands : Catalogue} {maxAttempts : UInt32}
    {turns : List Turn} {b : Broker} (h : Run (fresh mode commands maxAttempts) turns b) :
    (∀ d o, b.answers.get? d = some o ↔ Outstanding (marks turns) d o) ∧
    (∀ {ω : Type} (c : Carrier ω) (w : ω) (e : Endpoint) (id : UInt32) (data : Bytes) (o : Origin),
      b.consumers.contains e.address = true →
      ((handleData c b e id data w).1 = .ok (.forwarded o.producer o.id) ↔
        data ≠ hello ∧ ∃ n a peer, data = Packet.encode ⟨n, a⟩ ∧
          Outstanding (marks turns) ⟨e.address, n⟩ o ∧ b.peers.get? o.producer = some peer ∧
          (c.send w peer (Packet.encode ⟨o.id, a⟩)).1.isOk = true) ∧
      ((handleData c b e id data w).1 = .ok (.forwarded o.producer o.id) →
        ∃ n a peer i, data = Packet.encode ⟨n, a⟩ ∧ b.peers.get? o.producer = some peer ∧
          (b.turn c w (.data e id data)).sent = [⟨peer, Packet.encode ⟨o.id, a⟩, .ok i⟩])) ∧
    (∀ j d o, (marks turns)[j]? = some (.answered d (some o)) → ∃ i, AnswerTo (marks turns) i j) ∧
    ∀ i j j', AnswerTo (marks turns) i j → AnswerTo (marks turns) i j' → j = j' := by
  have hs := h.sound (sound_fresh mode commands maxAttempts)
  have ht := h.follows.tracks
  refine ⟨ht, ?_, fun j d o hj => h.exists_answerTo hj, fun i j j' hj hj' => ?_⟩
  · intro ω c w e id data o hc
    refine ⟨?_, hs.sent_of_forwarded hc c w id data o⟩
    simp only [← ht _ _]
    exact hs.forwarded_iff hc c w id data o
  · have h1 := h.answerTo_lt hj hj'
    have h2 := h.answerTo_lt hj' hj
    omega

theorem correlates_exactly_one_copy : ∃ turns b, Run (fresh .direct) turns b ∧
    Outstanding (marks turns) ⟨"worker", 7⟩ ⟨"asker", 3⟩ ∧ ∃ (c : Carrier Unit) (e : Endpoint),
      (handleData c b e 0 (Packet.encode ⟨7, [1]⟩) ()).1 = .ok (.forwarded "asker" 3) := by
  let c : Carrier Unit := ⟨fun w _ _ => (.ok 7, w)⟩
  let worker : Endpoint := ⟨"worker", 0, .far⟩
  let asker : Endpoint := ⟨"asker", 1, .far⟩
  have h0 : Run (fresh .direct) [] (fresh .direct) := .start
  have h := ((h0.next c () (.data worker 1 hello)).next c () (.data asker 3 [42])).next c () .pass
  have ho := (h.correlates_exactly.1 ⟨"worker", 7⟩ ⟨"asker", 3⟩).mp (by decide +kernel)
  refine ⟨_, _, h, ho, c, worker, ?_⟩
  exact (h.correlates_exactly.2.1 c () worker 0 _ ⟨"asker", 3⟩ (by decide +kernel)).1.mpr
    ⟨by decide, 7, [1], asker, rfl, ho, by decide +kernel, rfl⟩

end Switchboard.Broker
