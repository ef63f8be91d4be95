import Switchboard.Broker.Stages
import Switchboard.Proofs.Broker.Steps

/-!
# An undisturbed pass

The operations of a pass, performed one after the other with nothing in between, are `dispatch`.
-/

namespace Switchboard.Broker

variable {ω : Type} {c : Carrier ω}

/-- The operations of a pass lead from one state to another. -/
inductive Advances (c : Carrier ω) : Stage × Broker × ω → Stage × Broker × ω → Prop
  | refl (x : Stage × Broker × ω) : Advances c x x
  | step {s : Stage} {b : Broker} {w : ω} {y : Stage × Broker × ω} (h : Advances c (advance c b w s) y) :
      Advances c (s, b, w) y

theorem Advances.trans {x y z : Stage × Broker × ω} (h : Advances c x y) (h' : Advances c y z) :
    Advances c x z := by
  induction h with
  | refl => exact h'
  | step h ih => exact .step (ih h')

theorem Advances.of_eq {s : Stage} {b : Broker} {w : ω} {y z : Stage × Broker × ω}
    (h : advance c b w s = y) (h' : Advances c y z) : Advances c (s, b, w) z := by
  rw [← h] at h'
  exact .step h'

/-- Asking each consumer in turn and offering it a copy is `offer` over those that are subscribed. -/
theorem advances_offer (c : Carrier ω) (b : Broker) (m : Message) (command : String) :
    ∀ (es : List Endpoint) (n : Nat) (t : Correlations) (w : ω) {r : Nat × Correlations × ω},
      offer c m (es.filter fun e => b.subscriptions.isSubscribed e.address command) t w = r →
      Advances c (.proceed m command n es, { b with answers := t }, w)
        (.proceed m command (n + r.1) [], { b with answers := r.2.1 }, r.2.2)
  | [], n, t, w, r, h => by
    cases h
    exact .refl _
  | e :: es, n, t, w, r, h => by
    rw [Stage.proceed]
    by_cases hs : b.subscriptions.isSubscribed e.address command = true
    · rw [List.filter_cons_of_pos (by exact hs)] at h
      have ih := advances_offer c b m command es (n + (deliver c m e t w).1.toNat) (deliver c m e t w).2.1
        (deliver c m e t w).2.2 rfl
      cases h
      unfold offer
      rw [Nat.add_assoc, Nat.add_comm _ (Prod.fst _)] at ih
      refine .of_eq (y := (.offer m command e es n, { b with answers := t }, w)) ?_ (.step ih)
      rw [advance, if_pos hs]
    · rw [List.filter_cons_of_neg (by exact hs)] at h
      refine .of_eq ?_ (advances_offer c b m command es n t w h)
      rw [advance, if_neg hs]

theorem advances_stall (c : Carrier ω) (b : Broker) (m : Message) (w : ω) :
    Advances c (.count m, b, w) (.done (b.stall m).1, (b.stall m).2, w) := by
  unfold stall
  cases hr : b.queue.recordAttempt m.seq with
  | mk r queue =>
    cases r with
    | error f =>
      refine .of_eq ?_ (.refl _)
      rw [advance, hr]
    | ok attempts =>
      dsimp only
      split
      · next hl =>
        refine .of_eq (y := (.discard m, { b with queue }, w)) ?_ ?_
        · rw [advance, hr]
          simp only [if_pos hl]
        · cases hf : queue.removeFront m.seq with
          | mk r' queue' =>
            cases r' with
            | error f =>
              refine .of_eq ?_ (.refl _)
              rw [advance, hf]
            | ok m' =>
              refine .of_eq ?_ (.refl _)
              rw [advance, hf]
      · next hl =>
        refine .of_eq ?_ (.refl _)
        rw [advance, hr]
        simp only [if_neg hl]

theorem advances_direct (c : Carrier ω) (b : Broker) (w : ω) :
    Advances c (.next, b, w) (.done (dispatchDirect c b w).1, (dispatchDirect c b w).2) := by
  unfold dispatchDirect
  cases hn : b.consumers.next with
  | mk r consumers =>
    cases r with
    | error f =>
      refine .of_eq ?_ (.refl _)
      rw [advance, hn]
    | ok e =>
      refine .of_eq (y := (.dequeue e, { b with consumers }, w)) ?_ ?_
      · rw [advance, hn]
      · cases hd : b.queue.dequeue with
        | mk r queue =>
          cases r with
          | error f =>
            refine .of_eq ?_ (.refl _)
            rw [advance, hd]
          | ok m =>
            refine .of_eq (y := (.hand e m, { b with consumers, queue }, w)) ?_ (.step (.refl _))
            rw [advance, hd]

theorem advances_command (c : Carrier ω) (b : Broker) (w : ω) :
    Advances c (.peek, b, w) (.done (dispatchCommand c b w).1, (dispatchCommand c b w).2) := by
  unfold dispatchCommand
  cases hp : b.queue.peek with
  | error f =>
    refine .of_eq ?_ (.refl _)
    rw [advance, hp]
  | ok m =>
    refine .of_eq (y := (.resolve m, b, w)) ?_ ?_
    · rw [advance, hp]
    · dsimp only
      cases hr : b.commands.resolve m.payload with
      | error f =>
        refine .of_eq ?_ (advances_stall c b m w)
        rw [advance, hr]
      | ok invocation =>
        refine .of_eq (y := (.list m invocation.command.name, b, w)) ?_ (.step ?_)
        · rw [advance, hr]
        · refine .trans (advances_offer c b m _ b.consumers.entries 0 b.answers w rfl) ?_
          rw [Nat.zero_add, Stage.proceed]
          dsimp only
          by_cases hz : (offer c m (b.subscribers invocation.command.name) b.answers w).1 = 0
          · unfold Broker.subscribers at hz ⊢
            simp only [if_pos hz]
            exact advances_stall c _ m _
          · unfold Broker.subscribers at hz ⊢
            simp only [if_neg hz]
            exact .step (.refl _)

/-- **Undisturbed, a pass is `dispatch`.** -/
theorem advances_dispatch (c : Carrier ω) (b : Broker) (w : ω) :
    Advances c (.queue, b, w) (.done (dispatch c b w).1, (dispatch c b w).2) := by
  unfold dispatch
  by_cases hq : b.queue.isEmpty = true
  · rw [if_pos (by rw [hq, Bool.true_or])]
    refine .of_eq ?_ (.refl _)
    rw [advance, if_pos hq]
  · refine .of_eq (y := (.roster, b, w)) ?_ ?_
    · rw [advance, if_neg hq]
    · by_cases hc : b.consumers.isEmpty = true
      · rw [if_pos (by rw [hc, Bool.or_true])]
        refine .of_eq ?_ (.refl _)
        rw [advance, if_pos hc]
      · rw [if_neg (by simp [hq, hc])]
        cases hm : b.mode with
        | direct =>
          refine .of_eq ?_ (advances_direct c b w)
          simp only [advance, hc, hm, if_false, Bool.false_eq_true]
        | command =>
          refine .of_eq ?_ (advances_command c b w)
          simp only [advance, hc, hm, if_false, Bool.false_eq_true]

end Switchboard.Broker
