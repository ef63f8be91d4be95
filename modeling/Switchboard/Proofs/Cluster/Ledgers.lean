import Switchboard.Proofs.Cluster.Chronicle
import Switchboard.Proofs.Cluster.Wiring
import Switchboard.Proofs.Producer.Telling

/-!
# The ledgers of a chronicle

What a chronicle has on record of a producer is a ledger of it, and this balances after every step
(`Reaches.balanced`): the callbacks on record are those that were given notice, by an event, a sweep or a
tick, and the futures have the outcomes that are on record. So whatever answer a producer sees, in a notice
or by asking a future, is on record (`Balanced.called_of_sees`).
-/

namespace Switchboard.Cluster

namespace Chronicle

/-- What is on record of node `i`. -/
def recorded {α : Type} (i : Nat) (xs : List (Nat × α)) : List α := (xs.filter (·.1 = i)).map (·.2)

theorem recorded_append {α : Type} (i j : Nat) (xs : List (Nat × α)) (ys : List α) :
    recorded j (xs ++ ys.map (i, ·)) = recorded j xs ++ if i = j then ys else [] := by
  rw [recorded, recorded, List.filter_append, List.map_append]
  congr 1
  by_cases hij : i = j <;> simp [List.filter_map, Function.comp_def, hij]

def ledger (s : Chronicle) (i : Nat) : Producer.Ledger Unit where
  asked := recorded i s.asked
  notices := recorded i s.notices
  answers := recorded i (s.called.map fun c => (c.node, c.toAnswered))

/-- The ledger of every producer balances, and nobody else has one. -/
structure Balanced (s : Chronicle) : Prop where
  producers : ∀ (i : Nat) (n : Node) (task : Producer.Task Unit), s.cluster.nodes[i]? = some n →
    n.role = .producer task → (s.ledger i).Balances task.producer
  others : ∀ i : Nat, (∀ n, s.cluster.nodes[i]? = some n → n.role.isProducer = false) → s.ledger i = {}

theorem balanced_start (b : Broker) : (start b).Balanced :=
  ⟨fun i n task hi => (by cases hi), fun i hi => rfl⟩

section
variable {s s' : Chronicle} {i : Nat} {n : Node} {event : Event} {w' : Network}

theorem ledger_actedOn (s : Chronicle) (i j : Nat) (d : Producer.Task.Deed Unit) (task' : Producer.Task Unit)
    (w' : Network) : (s.actedOn i d task' w').ledger j = { s.ledger j with
      asked := (s.ledger j).asked ++ if i = j then d.asked else []
      notices := (s.ledger j).notices ++ if i = j then d.notices else [] } := by
  simp only [ledger, actedOn, recorded_append]

theorem ledger_deliveredTo (s : Chronicle) (i j : Nat) (n : Node) (event : Event) (w' : Network) :
    (s.deliveredTo i n event w').ledger j = { s.ledger j with
      notices := (s.ledger j).notices ++ if i = j then nodeNotices n event else []
      answers := (s.ledger j).answers ++ if i = j then (called? n i event).toList.map (·.toAnswered) else [] } := by
  have hc : (called? n i event).toList.map (fun c => (c.node, c.toAnswered)) =
      ((called? n i event).toList.map (·.toAnswered)).map (i, ·) := by
    rw [List.map_map]
    refine List.map_congr_left fun c hc => ?_
    rw [Option.mem_toList, called?.eq_def] at hc
    split at hc
    · obtain ⟨a, -, rfl⟩ := Option.map_eq_some_iff.mp hc
      rfl
    · cases hc
  simp only [ledger, deliveredTo, List.map_append, hc, recorded_append]

theorem called?_producer {task : Producer.Task Unit} (hr : n.role = .producer task) :
    (called? n i event).toList.map (·.toAnswered) = (task.producer.answered? event).toList := by
  cases event with
  | connected | disconnected => simp [called?, hr, Producer.answered?]
  | received under data =>
    simp only [called?, hr]
    cases task.producer.answered? (.received under data) <;> rfl

theorem Balanced.of_nodes (h : s.Balanced) (hn : s'.cluster.nodes = s.cluster.nodes)
    (hl : ∀ j, s'.ledger j = s.ledger j) : s'.Balanced := by
  refine ⟨fun j m task hj hr => ?_, fun j hj => ?_⟩
  · rw [hl]
    exact h.producers j m task (hn ▸ hj) hr
  · rw [hl]
    exact h.others j fun m hm => hj m (hn ▸ hm)

/-- One node changes, and its ledger if it is a producer. -/
theorem Balanced.setRole (h : s.Balanced) (hi : s.cluster.nodes[i]? = some n) (role : Role)
    (hn : s'.cluster.nodes = (s.cluster.setRole i role).nodes) (hl : ∀ j, i ≠ j → s'.ledger j = s.ledger j)
    (hp : ∀ task, role = .producer task → (s'.ledger i).Balances task.producer)
    (ho : role.isProducer = false → n.role.isProducer = false ∧ s'.ledger i = s.ledger i) : s'.Balanced := by
  have hself : s'.cluster.nodes[i]? = some { n with role } := by
    rw [hn, getElem?_setRole, if_pos rfl, hi]
    rfl
  have hother : ∀ j, i ≠ j → s'.cluster.nodes[j]? = s.cluster.nodes[j]? := by
    intro j hij
    rw [hn, getElem?_setRole, if_neg hij]
  refine ⟨fun j m task hj hr => ?_, fun j hj => ?_⟩
  · by_cases hij : i = j
    · subst hij
      obtain rfl := Option.some.inj (hself.symm.trans hj)
      exact hp task hr
    · rw [hl j hij]
      exact h.producers j m task (hother j hij ▸ hj) hr
  · by_cases hij : i = j
    · subst hij
      obtain ⟨hf, he⟩ := ho (hj _ hself)
      rw [he]
      refine h.others i fun m hm => ?_
      obtain rfl := Option.some.inj (hi.symm.trans hm)
      exact hf
    · rw [hl j hij]
      exact h.others j fun m hm => hj m (hother j hij ▸ hm)

theorem Balanced.join (h : s.Balanced) (name : Address) {role : Endpoint → Role}
    (hr : ∀ e task, role e = .producer task → ∃ options, task.producer = .ofOptions e options) :
    Balanced { s with cluster := (s.cluster.addLinked name role).2 } := by
  have hold : ∀ {j m}, s.cluster.nodes[j]? = some m → (s.cluster.addLinked name role).2.nodes[j]? = some m :=
    fun hj => (List.getElem?_append_left (List.getElem?_eq_some_iff.mp hj).1).trans hj
  refine ⟨fun j m task hj hm => ?_, fun j hj => h.others j fun m hm => hj m (hold hm)⟩
  cases hjs : s.cluster.nodes[j]? with
  | some m' =>
    obtain rfl := Option.some.inj ((hold hjs).symm.trans hj)
    exact h.producers j m' task hjs hm
  | none =>
    have hj' : (s.cluster.addLinked name role).2.nodes[j]? = some m := hj
    simp only [addLinked, addNode] at hj'
    rw [List.getElem?_append_right (List.getElem?_eq_none_iff.mp hjs), List.getElem?_singleton] at hj'
    split at hj'
    · obtain rfl := Option.some.inj hj'
      obtain ⟨options, ho⟩ := hr _ task hm
      have hempty : s.ledger j = {} := h.others j fun m hm => by rw [hjs] at hm; cases hm
      show (s.ledger j).Balances task.producer
      rw [hempty, ho]
      exact Producer.Ledger.balances_ofOptions _ options
    · cases hj'

theorem Balanced.act (h : s.Balanced) {task task' : Producer.Task Unit} {d : Producer.Task.Deed Unit}
    (hi : s.cluster.nodes[i]? = some n) (hr : n.role = .producer task)
    (ha : task.Acts Network.carrier s.cluster.network d task' w') : (s.actedOn i d task' w').Balanced := by
  refine h.setRole hi (.producer task') rfl (fun j hij => ?_) (fun t ht => ?_) fun hf => by cases hf
  · rw [ledger_actedOn, if_neg hij, if_neg hij, List.append_nil, List.append_nil]
  · cases ht
    rw [ledger_actedOn, if_pos rfl, if_pos rfl]
    exact (h.producers i n task hi hr).acts ha

theorem Balanced.deliver (h : s.Balanced) (hi : s.cluster.nodes[i]? = some n)
    (ha : takesEvents n.role = true) : (s.deliveredTo i n event w').Balanced := by
  have hother : ∀ j, i ≠ j → (s.deliveredTo i n event w').ledger j = s.ledger j := by
    intro j hij
    rw [ledger_deliveredTo, if_neg hij, if_neg hij, List.append_nil, List.append_nil]
  cases hr : n.role with
  | consumer consumer handler ended =>
    refine h.setRole hi (.consumer
      (consumer.handleEvent Network.carrier handler event w').2.1 handler (decide (event = .disconnected)))
      ?_ hother (fun t ht => by cases ht) fun _ => ⟨by rw [hr]; rfl, ?_⟩
    · simp only [deliveredTo, deliverEvent, hr]
      split <;> rfl
    · simp [ledger_deliveredTo, nodeNotices, called?, hr]
  | producer task =>
    refine h.setRole hi (.producer (task.handleEvent event).2) ?_ hother (fun t ht => ?_) fun hf => by cases hf
    · simp only [deliveredTo, deliverEvent, hr]
      obtain ⟨log, hl⟩ := noteAll_log
        ({ s.cluster with network := w' }.setRole i (.producer (task.handleEvent event).2)) n.name
        (task.handleEvent event).1
      rw [hl]
      rfl
    · cases ht
      have hn : nodeNotices n event = (task.producer.handleEvent event).1 := by rw [nodeNotices, hr]; rfl
      rw [ledger_deliveredTo, if_pos rfl, if_pos rfl, called?_producer hr, hn]
      exact (h.producers i n task hi hr).handleEvent event
  | raw | frames => rw [hr] at ha; cases ha

theorem Balanced.step (h : s.Balanced) (hs : Step s s') : s'.Balanced := by
  cases hs with
  | consumer name commands handler hn => exact h.join name fun e task ht => by cases ht
  | producer name options hn =>
    refine h.join name fun e task ht => ?_
    cases ht
    exact ⟨options, rfl⟩
  | handler hi hr new =>
    exact h.setRole hi _ rfl (fun j hij => rfl) (fun t ht => by cases ht) fun _ => ⟨by rw [hr]; rfl, rfl⟩
  | act hi hr ha => exact h.act hi hr ha
  | deliver hi ha ht => exact h.deliver hi ha
  | control | close | read | pass | resume | noted => exact h.of_nodes rfl fun j => rfl

theorem Reaches.balanced {b : Broker} (h : Reaches (start b) s) : s.Balanced := by
  induction h with
  | refl => exact balanced_start b
  | next _ hs ih => exact ih.step hs

/-! ## What producers see -/

/-- Node `i` sees an answer to its request `k`: a callback is given notice of it, or the future that waits
for the request returns it. -/
inductive Sees (s : Chronicle) (i : Nat) (k : UInt32) (answer : Bytes) : Prop
  | notice {x : Notice Unit} (hx : (i, x) ∈ s.notices) (hk : x.id = k) (ho : x.outcome = .ok answer)
  | future {n : Node} {task : Producer.Task Unit} {x : Producer.Asking Unit} {slot : Nat}
      (hi : s.cluster.nodes[i]? = some n) (hr : n.role = .producer task) (hx : (i, x) ∈ s.asked) (hk : x.id = k)
      (hw : x.waiter = .future slot) (hp : task.producer.poll ⟨k, slot⟩ = some (.ok answer))

theorem mem_recorded {α : Type} {xs : List (Nat × α)} {x : α} : x ∈ recorded i xs ↔ (i, x) ∈ xs := by
  simp [recorded]

theorem mem_answers {b : Producer.Answered Unit} :
    b ∈ (s.ledger i).answers ↔ ∃ c ∈ s.called, c.node = i ∧ c.toAnswered = b := by
  rw [ledger, mem_recorded, List.mem_map]
  simp only [Prod.mk.injEq]

theorem Balanced.of_notices (h : s.Balanced) {x : Notice Unit} (hx : x ∈ (s.ledger i).notices) :
    ∃ p : Producer Unit, (s.ledger i).Balances p := by
  by_contra hno
  have hempty : s.ledger i = {} := by
    refine h.others i fun n hn => ?_
    cases hr : n.role with
    | producer task => exact absurd ⟨_, h.producers i n task hn hr⟩ hno
    | consumer | raw | frames => rfl
  rw [hempty] at hx
  cases hx

/-- What a producer sees is an answer on record, to the request that it is taken for. -/
theorem Balanced.called_of_sees (h : s.Balanced) {k : UInt32} {answer : Bytes} (hs : s.Sees i k answer) :
    ∃ c ∈ s.called, c.node = i ∧ c.id = k ∧ c.answer = answer := by
  cases hs with
  | notice hx hk ho =>
    have hm := mem_recorded.mpr hx
    obtain ⟨p, hp⟩ := h.of_notices hm
    obtain ⟨b, hb, hid, -, ha⟩ := hp.of_notice hm ho
    obtain ⟨c, hc, hi, rfl⟩ := mem_answers.mp hb
    exact ⟨c, hc, hi, hid.trans hk, ha⟩
  | future hi hr hx hk hw hp =>
    subst hk
    obtain ⟨b, hb, hid, ha⟩ := (h.producers i _ _ hi hr).of_poll (mem_recorded.mpr hx) hw hp
    obtain ⟨c, hc, hi, rfl⟩ := mem_answers.mp hb
    exact ⟨c, hc, hi, congrArg (·.id) hid, ha⟩

end

end Chronicle

end Switchboard.Cluster
