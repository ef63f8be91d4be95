import Mathlib.Algebra.Group.Nat.Defs
import Mathlib.Data.List.Nodup
import Switchboard.Proofs.Client.Requests

/-!
# No request is left behind

On a memory link the end is reported only after the link refuses every send, so that what a task serves,
drains and leaves behind is settled by then: when it has finished, every request that was ever accepted
has been forgotten or has had its last call (`Run.leaves_none_behind`). A task that drains does finish
(`Run.finishes`).
-/

namespace Switchboard

namespace MemoryLink

/-- The near side learns of the end only when the link is closed. -/
def Heralds (l : MemoryLink) : Prop :=
  ∀ events, l.near.inbox = some events → .disconnected ∈ events → l.closed = true

/-- What a link keeps on whose near side `ids` were accepted. -/
structure Accepted (l : MemoryLink) (ids : List UInt32) : Prop where
  heralds : l.Heralds
  numbered : ids = (List.range' 1 ids.length).map .ofNat
  next : (Connection.memory l).Down .near ∨ l.near.nextId = .ofNat (ids.length + 1)

variable {l l' : MemoryLink} {ids : List UInt32}

theorem accepted_connect (near far : Address) : (connect near far).Accepted [] := by
  refine ⟨fun events hi hd => ?_, rfl, .inr rfl⟩
  cases hi
  simp at hd

theorem send_near (l : MemoryLink) (data : Bytes) : (l.send .near data).2.near.inbox = l.near.inbox ∧
    (l.send .near data).2.closed = l.closed ∧ ∀ id, (l.send .near data).1 = .ok id →
      l.closed = false ∧ id = l.near.nextId ∧ (l.send .near data).2.near.nextId = id + 1 := by
  cases hc : l.closed with
  | true =>
    rw [send_of_closed hc]
    exact ⟨rfl, hc, fun id h => by cases h⟩
  | false =>
    cases hi : l.far.inbox with
    | none =>
      rw [send_of_dropped (s := .near) hc hi]
      exact ⟨rfl, hc, fun id h => by cases h⟩
    | some events =>
      rw [send_of_listening (s := .near) hc hi]
      exact ⟨rfl, hc, fun id h => by cases h; exact ⟨rfl, rfl, rfl⟩⟩

theorem take_near {event : Event} (h : l.take .near = (some event, l')) :
    ∃ rest, l.near.inbox = some (event :: rest) ∧ l' = { l with near := { l.near with inbox := some rest } } := by
  unfold take at h
  split at h
  · next e rest hi =>
    obtain ⟨he, rfl⟩ := Prod.mk.inj h
    obtain rfl := Option.some.inj he
    exact ⟨rest, hi, rfl⟩
  · cases h

theorem Accepted.send (h : l.Accepted ids) (data : Bytes) :
    (l.send .near data).2.Accepted (ids ++ (l.send .near data).1.toOption.toList) := by
  obtain ⟨hi, hcl, hok⟩ := l.send_near data
  have hh : (l.send .near data).2.Heralds := by
    intro events he hd
    rw [hcl]
    exact h.heralds events (hi ▸ he) hd
  have hdown := Connection.isOk_send_iff (c := .memory l) trivial .near data
  cases hx : ((Connection.memory l).send .near data).1 with
  | error f =>
    rw [hx] at hdown
    rw [show (l.send .near data).1 = .error f from hx]
    simp only [Except.toOption, Option.toList_none, List.append_nil]
    exact ⟨hh, h.numbered, .inl ((hdown.mp rfl).send .near data)⟩
  | ok id =>
    rw [hx] at hdown
    obtain ⟨-, hid, hid'⟩ := hok id hx
    have hnext := h.next.resolve_left fun hd => by cases hdown.mpr hd
    rw [show (l.send .near data).1 = .ok id from hx]
    refine ⟨hh, ?_, .inr ?_⟩
    all_goals simp only [Except.toOption, Option.toList_some, List.length_append, List.length_singleton]
    · rw [map_range'_snoc, ← h.numbered, hid, hnext]
    · rw [hid', hid, hnext]
      exact (UInt32.ofNat_add (ids.length + 1) 1).symm

/-- A step that leaves the numbering of the near side alone. -/
structure Keeps (l l' : MemoryLink) : Prop where
  nextId : l'.near.nextId = l.near.nextId
  closed : l.closed = true → l'.closed = true
  heralds : l.Heralds → l'.Heralds

theorem Accepted.keeps (h : l.Accepted ids) (hk : l.Keeps l')
    (hd : (Connection.memory l).Down .near → (Connection.memory l').Down .near) : l'.Accepted ids := by
  refine ⟨hk.heralds h.heralds, h.numbered, ?_⟩
  rw [hk.nextId]
  exact h.next.imp_left hd

theorem Keeps.of_eq (hn : l'.near = l.near) (hc : l'.closed = l.closed) : l.Keeps l' := by
  refine ⟨by rw [hn], fun h => hc ▸ h, fun h events hi hd => ?_⟩
  rw [hc]
  exact h events (hn ▸ hi) hd

theorem keeps_take {event : Event} (h : l.take .near = (some event, l')) : l.Keeps l' := by
  obtain ⟨rest, hi, rfl⟩ := take_near h
  refine ⟨rfl, fun hc => hc, fun hh events he hd => ?_⟩
  obtain rfl := Option.some.inj he
  exact hh _ hi (List.mem_cons_of_mem event hd)

theorem keeps_close (l : MemoryLink) : l.Keeps l.close := by
  unfold close
  split
  · exact .of_eq rfl rfl
  · exact ⟨rfl, fun _ => rfl, fun _ _ _ _ => rfl⟩

theorem keeps_answer (l : MemoryLink) (data : Bytes) : l.Keeps (l.send .far data).2 := by
  cases hc : l.closed with
  | true =>
    rw [send_of_closed hc]
    exact .of_eq rfl rfl
  | false =>
    cases hi : l.near.inbox with
    | none =>
      rw [send_of_dropped (s := .far) hc hi]
      exact .of_eq rfl rfl
    | some events =>
      rw [send_of_listening (s := .far) hc hi]
      refine ⟨rfl, fun h => h, fun h events' he hd => ?_⟩
      obtain rfl := Option.some.inj he
      exact h events hi (by simpa using hd)

end MemoryLink

namespace Tracker

variable {κ : Type} {t : Tracker κ} {id : UInt32}

theorem get?_of_isEmpty (h : t.isEmpty = true) : t.pending.get? id = none := (t.pending.isEmpty_iff.mp h) id

theorem isEmpty_remove (h : t.isEmpty = true) : (t.remove id).2.isEmpty = true := by
  refine (Dictionary.isEmpty_iff _).mpr fun k => ?_
  rw [remove, Dictionary.get?_erase, get?_of_isEmpty h, ite_self]

end Tracker

namespace Connection

theorem move_memory (l : MemoryLink) (m : Motion) : ∃ l', (memory l).move m = memory l' ∧ l.Keeps l' ∧
    ((memory l).Down .near → (memory l').Down .near) := by
  have still : ∃ l', memory l = memory l' ∧ l.Keeps l' ∧ ((memory l).Down .near → (memory l').Down .near) :=
    ⟨l, rfl, .of_eq rfl rfl, id⟩
  cases m with
  | close s => exact ⟨l.close, rfl, l.keeps_close, fun h => h.close s⟩
  | answer data => exact ⟨_, rfl, l.keeps_answer data, fun h => h.send .far data⟩
  | take =>
    refine ⟨_, rfl, ?_, fun h => h.take .far⟩
    unfold MemoryLink.take
    split <;> exact .of_eq rfl rfl
  | drop => exact ⟨_, rfl, .of_eq rfl rfl, fun h => h.drop .far⟩
  | pass | read | arrive | hangUp | fail => exact still

end Connection

namespace Client

variable {κ : Type}

/-- The id under which a turn has something accepted. -/
def Turn.accepted? (t : Turn κ) : Option UInt32 := t.result.bind Except.toOption

/-- The ids under which anything was accepted. -/
def accepted (turns : List (Turn κ)) : List UInt32 := turns.filterMap (·.accepted?)

/-- What every run on a memory link keeps, if `ids` were accepted in it. -/
structure Sound (c : Client κ) (l : MemoryLink) (ids : List UInt32) : Prop where
  connection : c.connection = .memory l
  side : c.producer.broker.side = .near
  accepted : l.Accepted ids
  closed : c.stage ≠ .serving → l.closed = true
  empty : c.stage = .finished → c.tracker.isEmpty = true

section
variable {near far : Address} {options : ProducerOptions} {now : Nat} {turns : List (Turn κ)} {t : Turn κ}
  {c c' : Client κ} {l : MemoryLink} {ids : List UInt32}

theorem sound_fresh :
    (fresh (.memory (.connect near far)) far options now : Client κ).Sound (.connect near far) [] :=
  ⟨rfl, rfl, MemoryLink.accepted_connect near far, fun h => absurd rfl h, fun h => (nomatch h)⟩

theorem Sound.wires (h : t.before.Sound l ids) (ht : t.Wires) : ∃ l', t.after.connection = .memory l' ∧
    (l.closed = true → l'.closed = true) ∧ l'.Accepted (ids ++ t.accepted?.toList) := by
  have hc := h.connection
  have same : t.result = none → ids ++ t.accepted?.toList = ids := by
    intro hr
    rw [Turn.accepted?, hr]
    exact List.append_nil ids
  cases ht with
  | sent data ha hr hw =>
    rw [hc, h.side] at hr hw
    refine ⟨(l.send .near data).2, hw, fun hcl => (l.send_near data).2.1.trans hcl, ?_⟩
    rw [Turn.accepted?, hr]
    exact h.accepted.send data
  | @took event ha hr hw =>
    rw [hc] at hw
    obtain ⟨he, hl⟩ := Prod.mk.inj hw
    have hk := MemoryLink.keeps_take (Prod.ext he rfl : l.take .near = (some event, (l.take .near).2))
    rw [same hr]
    exact ⟨_, hl.symm, hk.closed, h.accepted.keeps hk fun hd => hd.take .near⟩
  | moved m ha hr hw =>
    obtain ⟨l', hl, hk, hd⟩ := Connection.move_memory l m
    rw [same hr]
    exact ⟨l', hw.trans ((congrArg (·.move m) hc).trans hl), hk.closed, h.accepted.keeps hk hd⟩
  | still ha hr hw =>
    rw [same hr]
    exact ⟨l, hw.trans hc, fun hcl => hcl, h.accepted⟩

theorem Sound.not_accepts (h : t.before.Sound l ids) (ht : t.Wires) (hcl : l.closed = true) (id : UInt32) :
    t.result ≠ some (.ok id) := by
  intro hok
  cases ht with
  | sent data ha hr hw =>
    rw [hok, h.connection, h.side] at hr
    obtain ⟨hop, -⟩ := (l.send_near data).2.2 id (Option.some.inj hr).symm
    rw [hcl] at hop
    cases hop
  | took ha hr hw => rw [hok] at hr; cases hr
  | moved m ha hr hw => rw [hok] at hr; cases hr
  | still ha hr hw => rw [hok] at hr; cases hr

theorem settleStage_finished {p : Producer κ} (h : Producer.Task.settleStage p = .finished) :
    p.tracker.isEmpty = true := by
  unfold Producer.Task.settleStage at h
  split at h
  · assumption
  · cases h

theorem Turn.Occurs.sound (ht : t.Occurs) (h : t.before.Sound l ids) :
    ∃ l', t.after.Sound l' (ids ++ t.accepted?.toList) := by
  obtain ⟨l', hc, hcl, hids⟩ := h.wires ht.wires
  have closed : t.after.stage ≠ .serving → l.closed = true := by
    intro hs
    cases ht.stages with
    | same he => exact h.closed (he ▸ hs)
    | ended ha hb hd he =>
      rw [h.connection] at hd
      obtain ⟨rest, hi, -⟩ := MemoryLink.take_near (Prod.ext hd rfl : l.take .near = (_, (l.take .near).2))
      exact h.accepted.heralds _ hi List.mem_cons_self
    | drained ha hb he => exact h.closed (by rw [hb]; simp)
  refine ⟨l', hc, ht.broker ▸ h.side, hids, fun hs => hcl (closed hs), fun hf => ?_⟩
  cases ht.stages with
  | same he =>
    have hb : t.before.stage = .finished := he ▸ hf
    have hem := h.empty hb
    cases ht.books with
    | same _ htr => rw [htr]; exact hem
    | accepted hr _ _ => exact absurd hr.1 (h.not_accepts ht.wires (closed (by rw [hf]; simp)) _)
    | forgotten _ _ htr => rw [htr]; exact Tracker.isEmpty_remove hem
    | answered hs => rw [hb] at hs; cases hs
    | swept hs => exact absurd hb hs
  | ended _ _ _ he => exact settleStage_finished (he ▸ hf)
  | drained _ _ he => exact settleStage_finished (he ▸ hf)

theorem accepted_snoc (turns : List (Turn κ)) (t : Turn κ) :
    accepted (turns ++ [t]) = accepted turns ++ t.accepted?.toList := by
  rw [accepted, List.filterMap_append]
  cases ha : t.accepted? <;> simp [accepted, ha]

theorem Run.sound (h : Run (fresh (.memory (.connect near far)) far options now) turns c) :
    ∃ l, c.Sound l (accepted turns) := by
  refine h.induct (P := fun turns c => ∃ l, c.Sound l (accepted turns)) ⟨_, sound_fresh⟩ fun turns t _ ht ih => ?_
  obtain ⟨l, hl⟩ := ih
  rw [accepted_snoc]
  exact ht.sound hl

theorem Sound.nodup (h : c.Sound l ids) (hn : ids.length < 2 ^ 32) : ids.Nodup := by
  have hi : ids.map UInt32.toNat = List.range' 1 ids.length := by
    rw [h.accepted.numbered, List.map_map, List.length_map, List.length_range']
    refine (List.map_congr_left fun k hk => ?_).trans (List.map_id _)
    rw [List.mem_range'_1] at hk
    have hk' : k < 2 ^ 32 := by omega
    exact UInt32.toNat_ofNat_of_lt hk'
  have hnd : (ids.map UInt32.toNat).Nodup := hi ▸ List.nodup_range'
  exact hnd.of_map

theorem not_accepts_twice {past future : List (Turn κ)} {t' : Turn κ} {id : UInt32}
    {r r' : PendingRequest (Waiter κ)} (hn : (accepted (past ++ t :: future)).Nodup) (ha : t.Accepts id r)
    (ht' : t' ∈ future) : ¬ t'.Accepts id r' := by
  intro ha'
  have accepts : ∀ {t : Turn κ} {r}, t.Accepts id r → t.accepted? = some id := by
    intro t r ha
    rw [Turn.accepted?, ha.1]
    rfl
  rw [accepted, List.filterMap_append, List.filterMap_cons_some (accepts ha)] at hn
  have hid := (List.nodup_cons.mp hn.of_append_right).1
  exact hid (List.mem_filterMap.mpr ⟨t', ht', accepts ha'⟩)

/-! ## The end of a task -/

theorem settleStage_ne_serving (p : Producer κ) : Producer.Task.settleStage p ≠ .serving := by
  unfold Producer.Task.settleStage
  split <;> exact Producer.Stage.noConfusion

theorem Turn.Stages.not_serving (h : t.Stages) (hs : t.before.stage ≠ .serving) : t.after.stage ≠ .serving := by
  cases h with
  | same he => rwa [he]
  | ended _ hb => exact absurd hb hs
  | drained _ _ he => exact he ▸ settleStage_ne_serving _

/-- Once a task has ceased to serve its link, nothing is accepted any more. -/
theorem Sound.ceased {more : List (Turn κ)} (h : c.Sound l ids) (hs : c.stage ≠ .serving) (hr : Run c more c') :
    c'.stage ≠ .serving ∧ (∃ l' ids', c'.Sound l' ids') ∧ ∀ t ∈ more, ∀ id, t.result ≠ some (.ok id) := by
  refine hr.induct (P := fun more c' => c'.stage ≠ .serving ∧ (∃ l' ids', c'.Sound l' ids') ∧
    ∀ t ∈ more, ∀ id, t.result ≠ some (.ok id)) ⟨hs, ⟨l, ids, h⟩, fun t ht => by cases ht⟩ ?_
  rintro more t - ht ⟨hs, ⟨l, ids, h⟩, hall⟩
  refine ⟨ht.stages.not_serving hs, (ht.sound h).imp fun _ h' => ⟨_, h'⟩, fun t' ht' => ?_⟩
  rcases List.mem_append.mp ht' with ht' | ht'
  · exact hall t' ht'
  · rw [List.mem_singleton.mp ht']
    exact h.not_accepts ht.wires (h.closed hs)

theorem tick_finishes (hs : c.stage ≠ .serving)
    (hd : ∀ id r, c.tracker.pending.get? id = some r → r.deadline ≤ c.now) :
    (c.turn .tick).after.stage = .finished := by
  cases hc : c.stage with
  | serving => exact absurd hc hs
  | finished => exact ((turn_occurs c .tick).finished hc).1
  | draining =>
    have hem : (c.producer.sweep c.now).2.2.tracker.isEmpty = true := by
      rw [Producer.tracker_sweep]
      refine (Dictionary.isEmpty_iff _).mpr fun id => ?_
      refine (c.tracker.get?_sweep c.now id).trans ?_
      cases hg : c.tracker.pending.get? id with
      | none => rfl
      | some r => simp [hd id r hg]
    have ht : (c.turn .tick).after.stage = Producer.Task.settleStage (c.producer.sweep c.now).2.2 := by
      simp only [turn, Producer.Task.tick, show c.task.stage = .draining from hc]
      rfl
    rw [ht, Producer.Task.settleStage, if_pos hem]

/-- A task that drains a memory link finishes with the first tick after the last deadline, whatever else
happens on the way. -/
theorem Run.finishes {more : List (Turn κ)} {last : Nat}
    (h : Run (fresh (.memory (.connect near far)) far options now) turns c) (hs : c.stage = .draining)
    (hl : ∀ id r, c.tracker.pending.get? id = some r → r.deadline ≤ last) (hr : Run c more c')
    (hn : last ≤ c'.now) : (c'.turn .tick).after.stage = .finished := by
  obtain ⟨l, hc⟩ := h.sound
  obtain ⟨hs', -, hno⟩ := hc.ceased (by simp [hs]) hr
  refine tick_finishes hs' fun id r hg => Nat.le_trans (hl id r ?_) hn
  exact hr.pending_of_after (fun t ht r' ha => hno t ht id ha.1) hg

/-- **No request is left behind.** When the task of a producer on a memory link has finished, nothing is
pending: every request that was ever accepted was forgotten while it waited, or has had its last call, in
single mode its only one, and in multiple mode the timeout behind its answers; no timeout came before its
deadline. From then on no request is accepted and nothing is pending. The owner sees these calls. -/
theorem Run.leaves_none_behind (h : Run (fresh (.memory (.connect near far)) far options now) turns c)
    (hn : (accepted turns).length < 2 ^ 32) (hf : c.stage = .finished) :
    c.tracker.isEmpty = true ∧
    (∀ past t future id r, turns = past ++ t :: future → t.Accepts id r →
      Forgotten options.answerMode id r future ∨ Resolved options.answerMode id r future) ∧
    (∀ more c', Run c more c' → c'.tracker.isEmpty = true ∧
      ∀ t ∈ more, t.request?.isSome = true → ∃ f, t.result = some (.error f)) ∧
    (Producer.ofOptions ⟨far, 0, .near⟩ options).Tells (turns.flatMap (·.told)) (turns.flatMap (·.notices))
      c.producer := by
  obtain ⟨l, hs⟩ := h.sound
  have hem := hs.empty hf
  refine ⟨hem, fun past t future id r hsp ha => ?_, fun more c' hr => ?_, h.tells⟩
  · subst hsp
    obtain ⟨ht, hp, hr⟩ := h.of_split rfl
    have hm : t.after.tracker.mode = options.answerMode := ht.books.mode.trans hp.tracker_mode
    have hnew : ∀ t' ∈ future, ∀ r', ¬ t'.Accepts id r' := fun t' ht' _ =>
      not_accepts_twice (hs.nodup hn) ha ht'
    cases hr.fate hm (ht.waits ha) hnew with
    | waits hg => rw [Tracker.get?_of_isEmpty hem] at hg; cases hg
    | forgotten _ h => exact .inl h
    | resolved _ h => exact .inr h
  · obtain ⟨-, ⟨l', ids', hs'⟩, hno⟩ := hs.ceased (by simp [hf]) hr
    refine ⟨hs'.empty (hr.finished hf).1, fun t ht hq => ?_⟩
    obtain ⟨past, future, rfl⟩ := List.append_of_mem ht
    obtain ⟨r, hq⟩ := Option.isSome_iff_exists.mp hq
    obtain ⟨x, hx, -⟩ := (hr.of_split rfl).1.asks hq
    cases x with
    | error f => exact ⟨f, hx⟩
    | ok id => exact absurd hx (hno t ht id)

end

/-- One request is answered and expires after the link has closed, another one is forgotten, and a third one
comes too late. -/
theorem leaves_none_behind_closed : ∃ (turns past future : List (Turn Unit)) (t : Turn Unit) (c : Client Unit)
    (r : PendingRequest (Waiter Unit)),
    Run (fresh (.memory (.connect "asker" "broker")) "broker" ⟨.multiple, 50, 10⟩ 100) turns c ∧
    (accepted turns).length < 2 ^ 32 ∧ c.stage = .finished ∧ c.tracker.isEmpty = true ∧
    turns = past ++ t :: future ∧ t.Accepts 1 r ∧ r.deadline = 150 ∧
    ((calls 1 future).map fun x => (x.outcome, x.time)) = [(.ok [97], 100), (.error (.timeout 1), 160)] ∧
    (Forgotten .multiple 1 r future ∨ Resolved .multiple 1 r future) := by
  have h0 : Run (fresh (.memory (.connect "asker" "broker")) "broker" ⟨.multiple, 50, 10⟩ 100 : Client Unit) [] _ :=
    .start
  have h1 := (h0.next (.request (toBytes "ping") none ())).next (.request (toBytes "pong") (some 500) ())
  have h2 := (((h1.next .take).next (.elsewhere (.answer (Packet.encode ⟨1, [97]⟩)))).next .take).next (.forget 2)
  have h3 := ((h2.next (.elsewhere (.close .far))).next .take).next (.request (toBytes "late") none ())
  have h := (h3.next (.wait 60)).next .tick
  obtain ⟨he, hr, -, -⟩ := h.leaves_none_behind (by decide +kernel) (by decide +kernel)
  refine ⟨_, [], _, _, _, _, h, by decide +kernel, by decide +kernel, he, rfl, ⟨rfl, rfl⟩, rfl,
    by decide +kernel, ?_⟩
  exact hr [] _ _ _ _ rfl ⟨rfl, rfl⟩

end Client

end Switchboard
