import Mathlib.Data.List.Nodup
import Switchboard.Cluster.Steps
import Switchboard.Proofs.Carrier

/-!
# Who is connected to whom

Node `i` of a cluster has the near side of connection `i`, and the broker the far side. What a node is
called and whether it is a producer never change (`identities`), so that the broker's endpoints identify
the nodes.
-/

namespace Switchboard

namespace Network

variable {n n' : Network}

theorem length_modify (n : Network) (i : Nat) (f : Connection → Connection) :
    (n.modify i f).connections.length = n.connections.length := List.length_modify ..

theorem length_send (n : Network) (e : Endpoint) (data : Bytes) :
    (carrier.send n e data).2.connections.length = n.connections.length := by
  simp only [carrier]
  split
  · rfl
  · exact length_modify ..

theorem length_sends {sent : List Sending} (h : carrier.Sends n sent n') :
    n'.connections.length = n.connections.length := by
  induction h with
  | nil n => rfl
  | @cons n n' e data sent _ ih => rw [ih, length_send]

theorem length_take (n : Network) (e : Endpoint) : (n.take e).2.connections.length = n.connections.length := by
  unfold take
  split
  · rfl
  · exact length_modify ..

end Network

def Role.isProducer : Role → Bool
  | producer _ => true
  | consumer _ _ _ | raw | frames => false

/-- Where the owner of the role sends to. -/
def Role.endpoint? : Role → Option Endpoint
  | consumer c _ _ => some c.broker
  | producer t => some t.producer.broker
  | raw | frames => none

namespace Cluster

/-- The names of the nodes, and which of them are producers. -/
def identities (c : Cluster) : List (Address × Bool) := c.nodes.map fun n => (n.name, n.role.isProducer)

/-- The broker's side of a node's connection. -/
def Far (c : Cluster) (e : Endpoint) : Prop :=
  e.side = .far ∧ ∃ p, c.identities[e.connection]? = some (e.address, p)

structure Wired (c : Cluster) : Prop where
  connections : c.network.connections.length = c.nodes.length
  readers : ∀ r ∈ c.readers, c.Far r.endpoint
  nodes : ∀ (i : Nat) (n : Node), c.nodes[i]? = some n →
    n.endpoint = ⟨brokerName, i, .near⟩ ∧ n.role.endpoint? = some n.endpoint
  names : (c.nodes.map (·.name)).Nodup

variable {c c' : Cluster}

theorem wired_ofBroker (b : Broker) : (ofBroker b).Wired :=
  ⟨rfl, fun r hr => (by cases hr), fun i n hn => (by cases hn), List.nodup_nil⟩

theorem identities_getElem? {i : Nat} {n : Node} (hi : c.nodes[i]? = some n) :
    c.identities[i]? = some (n.name, n.role.isProducer) := by
  rw [identities, List.getElem?_map, hi]
  rfl

theorem Far.mono {e : Endpoint} (h : c.Far e) (hi : c.identities.IsPrefix c'.identities) : c'.Far e := by
  obtain ⟨hs, p, hp⟩ := h
  obtain ⟨xs, hx⟩ := hi
  refine ⟨hs, p, ?_⟩
  rw [← hx, List.getElem?_append_left (List.getElem?_eq_some_iff.mp hp).1]
  exact hp

theorem Far.name_eq {e : Endpoint} (h : c.Far e) {n : Node} (hn : c.nodes[e.connection]? = some n) :
    n.name = e.address := by
  obtain ⟨-, p, hp⟩ := h
  rw [identities_getElem? hn] at hp
  exact (Prod.mk.inj (Option.some.inj hp)).1

/-- A name identifies the node. -/
theorem Wired.connection_eq (h : c.Wired) {i j : Nat} {a : Address} {p q : Bool}
    (hi : c.identities[i]? = some (a, p)) (hj : c.identities[j]? = some (a, q)) : i = j := by
  have hnames : (c.identities.map (·.1)).Nodup := by
    have := h.names
    rwa [identities, List.map_map]
  have hi' : (c.identities.map (·.1))[i]? = some a := by rw [List.getElem?_map, hi]; rfl
  have hj' : (c.identities.map (·.1))[j]? = some a := by rw [List.getElem?_map, hj]; rfl
  have hlt := (List.getElem?_eq_some_iff.mp hi').1
  exact (List.getElem?_inj hlt hnames).mp (hi'.trans hj'.symm)

theorem Wired.far_eq (h : c.Wired) {e e' : Endpoint} (he : c.Far e) (he' : c.Far e')
    (ha : e.address = e'.address) : e = e' := by
  obtain ⟨hs, p, hp⟩ := he
  obtain ⟨hs', p', hp'⟩ := he'
  rw [ha] at hp
  have hc := h.connection_eq hp hp'
  cases e; cases e'
  simp_all

/-! ## Changes -/

theorem Wired.congr (h : c.Wired) (hn : c'.nodes = c.nodes)
    (hr : ∀ r ∈ c'.readers, ∃ r' ∈ c.readers, r.endpoint = r'.endpoint)
    (hl : c'.network.connections.length = c.network.connections.length) : c'.Wired := by
  have hid : c'.identities = c.identities := by rw [identities, identities, hn]
  refine ⟨?_, fun r hm => ?_, ?_, ?_⟩
  · rw [hl, hn]; exact h.connections
  · obtain ⟨r', hm', he⟩ := hr r hm
    obtain ⟨hs, p, hp⟩ := h.readers r' hm'
    rw [he]
    exact ⟨hs, p, by rw [hid]; exact hp⟩
  · rw [hn]; exact h.nodes
  · rw [hn]; exact h.names

theorem noteAll_log (c : Cluster) (name : Address) : ∀ notices : List (Notice Unit),
    ∃ log, c.noteAll name notices = { c with log } := by
  intro notices
  induction notices generalizing c with
  | nil => exact ⟨c.log, rfl⟩
  | cons n ns ih =>
    obtain ⟨log, hl⟩ := ih (c.note name n.id.toNat (.outcome n.outcome))
    refine ⟨log, ?_⟩
    calc c.noteAll name (n :: ns) = (c.note name n.id.toNat (.outcome n.outcome)).noteAll name ns := rfl
      _ = { c.note name n.id.toNat (.outcome n.outcome) with log } := hl
      _ = { c with log } := rfl

section
variable {i : Nat} {n : Node} {role : Role}

theorem getElem?_setRole (c : Cluster) (i j : Nat) (role : Role) : (c.setRole i role).nodes[j]? =
    if i = j then c.nodes[j]?.map fun n => { n with role } else c.nodes[j]? := by
  simp only [setRole, List.getElem?_modify]
  split
  · rfl
  · cases c.nodes[j]? <;> rfl

theorem identities_setRole (hi : c.nodes[i]? = some n) (hr : role.isProducer = n.role.isProducer) :
    (c.setRole i role).identities = c.identities := by
  refine List.ext_getElem? fun j => ?_
  rw [identities, identities, List.getElem?_map, List.getElem?_map, getElem?_setRole]
  by_cases hij : i = j
  · subst hij
    simp [hi, hr]
  · rw [if_neg hij]

theorem Wired.setRole (h : c.Wired) (hi : c.nodes[i]? = some n) (hr : role.isProducer = n.role.isProducer)
    (he : role.endpoint? = some n.endpoint) : (c.setRole i role).Wired := by
  have hid := identities_setRole hi hr
  refine ⟨?_, fun r hm => ?_, fun j m hj => ?_, ?_⟩
  · rw [Cluster.setRole, List.length_modify]; exact h.connections
  · obtain ⟨hs, p, hp⟩ := h.readers r hm
    exact ⟨hs, p, by rw [hid]; exact hp⟩
  · rw [getElem?_setRole] at hj
    split at hj
    · next hij =>
      subst hij
      rw [hi] at hj
      rw [← Option.some.inj hj]
      exact ⟨(h.nodes i n hi).1, he⟩
    · exact h.nodes j m hj
  · have hnames := congrArg (List.map (·.1)) hid
    simp only [identities, List.map_map] at hnames
    have : ((c.setRole i role).nodes.map (·.name)) = c.nodes.map (·.name) := hnames
    rw [this]
    exact h.names

end

section
variable {name : Address} {role : Endpoint → Role}

theorem identities_addLinked (c : Cluster) (name : Address) (role : Endpoint → Role) :
    (c.addLinked name role).2.identities =
      c.identities ++ [(name, (role ⟨brokerName, c.network.connections.length, .near⟩).isProducer)] := by
  simp [addLinked, addNode, identities, Network.add]

theorem Wired.addLinked (h : c.Wired) (hn : name ∉ c.nodes.map (·.name))
    (hr : ∀ e, (role e).endpoint? = some e) : (c.addLinked name role).2.Wired := by
  have hid := identities_addLinked c name role
  have hpre : c.identities.IsPrefix (c.addLinked name role).2.identities := by
    rw [hid]; exact List.prefix_append ..
  refine ⟨?_, fun r hm => ?_, fun i n hi => ?_, ?_⟩
  · simp [Cluster.addLinked, addNode, Network.add, h.connections]
  · rcases List.mem_append.mp hm with hm | hm
    · exact (h.readers r hm).mono hpre
    · rw [List.mem_singleton.mp hm]
      refine ⟨rfl, (role ⟨brokerName, c.network.connections.length, .near⟩).isProducer, ?_⟩
      rw [hid]
      have : c.network.connections.length = c.identities.length := by rw [h.connections]; simp [identities]
      rw [show (Network.add c.network _).1 = c.identities.length from this, List.getElem?_concat_length]
  · rcases Nat.lt_or_ge i c.nodes.length with hlt | hge
    · exact h.nodes i n ((List.getElem?_append_left hlt).symm.trans hi)
    · have hi' : i = c.nodes.length := by
        have := (List.getElem?_eq_some_iff.mp hi).1
        simp [Cluster.addLinked, addNode] at this
        omega
      subst hi'
      have : n = ⟨name, ⟨brokerName, c.network.connections.length, .near⟩,
          role ⟨brokerName, c.network.connections.length, .near⟩⟩ :=
        (Option.some.inj ((List.getElem?_concat_length (l := c.nodes)).symm.trans hi)).symm
      rw [this, h.connections]
      exact ⟨rfl, hr _⟩
  · have hnames : (c.addLinked name role).2.nodes.map (·.name) = c.nodes.map (·.name) ++ [name] := by
      simp [Cluster.addLinked, addNode]
    rw [hnames]
    refine List.nodup_append.mpr ⟨h.names, List.nodup_singleton _, fun a ha b hb => ?_⟩
    rw [List.mem_singleton.mp hb]
    exact fun hab => hn (hab ▸ ha)

end

end Cluster

end Switchboard
