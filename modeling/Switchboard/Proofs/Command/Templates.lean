import Mathlib.Data.List.Induction
import Mathlib.Data.List.TakeWhile
import Switchboard.Command.Catalogue
import Switchboard.Proofs.Command.Grammar
import Switchboard.Proofs.History

/-!
# Templates

Of the calls on a catalogue, the last one on a name decides what the name stands for (`get?_calls`). The
template `{a}/{b}` then names the first two parameters of a payload (`templateNames_templateOf`): `vars` has
these names as its keys, bound by position, whatever is registered besides (`resolve_binds`).
-/

namespace Switchboard

namespace Dictionary

variable {κ ν : Type} [DecidableEq κ]

theorem ofList_snoc (ps : List (κ × ν)) (p : κ × ν) : ofList (ps ++ [p]) = (ofList ps).insert p.1 p.2 := by
  rw [ofList, List.foldl_append]
  rfl

/-- The last pair of a key counts. -/
theorem get?_ofList (ps : List (κ × ν)) (k : κ) (v : ν) :
    (ofList ps).get? k = some v ↔ Since (· = (k, v)) (·.1 = k) ps := by
  induction ps using List.reverseRecOn with
  | nil => simp [ofList, not_since_nil]
  | append_singleton ps p ih =>
    obtain ⟨k', v'⟩ := p
    rw [ofList_snoc, get?_insert, since_snoc, ← ih]
    by_cases h : k = k'
    · subst h
      simp
    · simp [h, Ne.symm h]

theorem get?_ofList_of_nodup {ps : List (κ × ν)} (h : (ps.map Prod.fst).Nodup) (k : κ) (v : ν) :
    (ofList ps).get? k = some v ↔ (k, v) ∈ ps := by
  rw [get?_ofList]
  constructor
  · rintro ⟨past, p, future, rfl, rfl, -⟩
    simp
  · intro hm
    obtain ⟨past, future, rfl⟩ := List.append_of_mem hm
    refine ⟨past, (k, v), future, rfl, rfl, fun q hq he => ?_⟩
    rw [List.map_append, List.map_cons, List.nodup_append, List.nodup_cons] at h
    exact h.2.1.1 (List.mem_map.mpr ⟨q, hq, he⟩)

theorem mem_keys_ofList {ps : List (κ × ν)} (h : (ps.map Prod.fst).Nodup) (k : κ) :
    k ∈ (ofList ps).keys ↔ k ∈ ps.map Prod.fst := by
  rw [mem_keys_iff, contains_iff]
  simp [get?_ofList_of_nodup h]

end Dictionary

namespace Catalogue

/-! ## Calls -/

inductive Call where
  | register (spec : CommandSpec)
  | unregister (name : String)
deriving DecidableEq, Repr

/-- The name that a call is about. -/
def Call.name : Call → String
  | register spec => spec.name
  | unregister name => name

/-- What a call leaves for its name. -/
def Call.spec? : Call → Option CommandSpec
  | register spec => some spec
  | unregister _ => none

theorem Call.spec?_eq_some_iff (c : Call) (spec : CommandSpec) : c.spec? = some spec ↔ c = .register spec := by
  cases c <;> simp [spec?]

def call (k : Catalogue) : Call → Catalogue
  | .register spec => k.register spec
  | .unregister name => (k.unregister name).2

def calls (k : Catalogue) (cs : List Call) : Catalogue := cs.foldl call k

/-- The specification was registered and nothing has been called on its name since. -/
def InForce (cs : List Call) (spec : CommandSpec) : Prop := Since (· = .register spec) (·.name = spec.name) cs

theorem calls_snoc (k : Catalogue) (cs : List Call) (c : Call) : k.calls (cs ++ [c]) = (k.calls cs).call c := by
  rw [calls, List.foldl_append]
  rfl

theorem get?_call (k : Catalogue) (c : Call) (name : String) :
    (k.call c).get? name = if name = c.name then c.spec? else k.get? name := by
  cases c with
  | register spec => exact k.specs.get?_insert spec.name spec name
  | unregister name' => exact k.specs.get?_erase name' name

theorem get?_calls (cs : List Call) (name : String) (spec : CommandSpec) :
    (empty.calls cs).get? name = some spec ↔ spec.name = name ∧ InForce cs spec := by
  induction cs using List.reverseRecOn with
  | nil =>
    have hn : (empty.calls []).get? name = none := rfl
    simp [hn, InForce, not_since_nil]
  | append_singleton cs c ih =>
    rw [calls_snoc, get?_call, InForce, since_snoc]
    by_cases h : name = c.name
    · rw [if_pos h, c.spec?_eq_some_iff]
      constructor
      · rintro rfl
        exact ⟨h.symm, .inl rfl⟩
      · rintro ⟨hn, hc | ⟨-, hne⟩⟩
        · exact hc
        · exact absurd (h.symm.trans hn.symm) hne
    · rw [if_neg h, ih]
      constructor
      · rintro ⟨hn, hs⟩
        exact ⟨hn, .inr ⟨hs, fun he => h (hn.symm.trans he.symm)⟩⟩
      · rintro ⟨hn, rfl | ⟨hs, -⟩⟩
        · exact absurd hn.symm h
        · exact ⟨hn, hs⟩

theorem get?_calls_eq_none (cs : List Call) (name : String) :
    (empty.calls cs).get? name = none ↔ ∀ spec, InForce cs spec → spec.name ≠ name := by
  rw [Option.eq_none_iff_forall_ne_some]
  constructor
  · intro h spec hf hn
    exact h spec ((get?_calls cs name spec).mpr ⟨hn, hf⟩)
  · intro h spec hg
    obtain ⟨hn, hf⟩ := (get?_calls cs name spec).mp hg
    exact h spec hf hn

/-- Calls on other names leave a name as it is. -/
theorem get?_calls_filter (cs : List Call) (name : String) :
    (empty.calls (cs.filter (·.name = name))).get? name = (empty.calls cs).get? name := by
  induction cs using List.reverseRecOn with
  | nil => rfl
  | append_singleton cs c ih =>
    rw [calls_snoc, get?_call, List.filter_append]
    by_cases h : name = c.name
    · rw [List.filter_cons_of_pos (by simpa using h.symm), List.filter_nil, calls_snoc, get?_call, if_pos h,
        if_pos h]
    · rw [List.filter_cons_of_neg (by simpa using Ne.symm h), List.filter_nil, List.append_nil, if_neg h, ih]

/-! ## Names in braces -/

/-- What a parameter can be called. -/
structure Nameable (name : String) : Prop where
  named : name ≠ ""
  separator : '/' ∉ name.toList
  opening : '{' ∉ name.toList
  closing : '}' ∉ name.toList

theorem Nameable.not_isBrace {name : String} (h : Nameable name) {c : Char} (hc : c ∈ name.toList) :
    isBrace c = false := by
  have ho : c ≠ '{' := fun he => h.opening (he ▸ hc)
  have hcl : c ≠ '}' := fun he => h.closing (he ▸ hc)
  simp [isBrace, ho, hcl]

def placeholder (name : String) : String := "\x7b" ++ name ++ "\x7d"

/-- The template that gives the parameters these names. -/
def templateOf (names : List String) : String := "/".intercalate (names.map placeholder)

theorem toList_placeholder (name : String) : (placeholder name).toList = '{' :: (name.toList ++ ['}']) := by
  simp [placeholder]

theorem dropWhile_isBrace {cs : List Char} (h : ∀ c ∈ cs, isBrace c = false) (hn : cs ≠ []) (ds : List Char) :
    (cs ++ ds).dropWhile isBrace = cs ++ ds := by
  cases cs with
  | nil => exact absurd rfl hn
  | cons c cs => rw [List.cons_append, List.dropWhile_cons_of_neg (by simp [h c (List.mem_cons_self ..)])]

theorem Nameable.trimBraces_placeholder {name : String} (h : Nameable name) :
    trimBraces (placeholder name).toList = name.toList := by
  have hn := toList_ne_nil.mpr h.named
  have hr : name.toList.reverse ≠ [] := by simpa using hn
  have hl : List.dropWhile isBrace ('{' :: (name.toList ++ ['}'])) = name.toList ++ ['}'] := by
    rw [List.dropWhile_cons_of_pos (by decide), dropWhile_isBrace (fun c => h.not_isBrace) hn]
  have ht : List.dropWhile isBrace (name.toList ++ ['}']).reverse = name.toList.reverse := by
    rw [List.reverse_append, List.reverse_singleton, List.singleton_append,
      List.dropWhile_cons_of_pos (by decide)]
    have := dropWhile_isBrace (fun c hc => h.not_isBrace (List.mem_reverse.mp hc)) hr []
    rwa [List.append_nil] at this
  rw [trimBraces, toList_placeholder, hl, ht, List.reverse_reverse]

theorem placeholder_wellFormed {name : String} {names : List String} (h : ∀ n ∈ name :: names, Nameable n) :
    Command.WellFormed ⟨placeholder name, names.map placeholder⟩ := by
  have hs : ∀ n ∈ name :: names, Command.separator ∉ (placeholder n).toList := by
    intro n hn hm
    rw [toList_placeholder] at hm
    simp only [List.mem_cons, List.mem_append, List.not_mem_nil, or_false] at hm
    rcases hm with hm | hm | hm
    · exact absurd hm (by decide)
    · exact (h n hn).separator hm
    · exact absurd hm (by decide)
  refine ⟨?_, hs name (List.mem_cons_self ..), fun p hp => ?_⟩
  · rw [← toList_ne_nil, toList_placeholder]
    exact List.cons_ne_nil _ _
  · obtain ⟨n, hn, rfl⟩ := List.mem_map.mp hp
    exact hs n (List.mem_cons_of_mem _ hn)

theorem templateNames_templateOf {names : List String} (h : ∀ n ∈ names, Nameable n) :
    templateNames (templateOf names) = names := by
  cases names with
  | nil => rfl
  | cons n ns =>
    have ht : templateOf (n :: ns) = Command.toText ⟨placeholder n, ns.map placeholder⟩ :=
      (Command.toText_eq_intercalate ⟨placeholder n, ns.map placeholder⟩).symm
    have hf : (placeholder n).toList :: (ns.map placeholder).map String.toList =
        (n :: ns).map fun m => (placeholder m).toList := by simp
    -- no field is empty, so all of them name a parameter
    have hne : ∀ f ∈ (n :: ns).map fun m => (placeholder m).toList, (!f.isEmpty) = true := by
      intro f hm
      obtain ⟨m, -, rfl⟩ := List.mem_map.mp hm
      rw [toList_placeholder]
      rfl
    have htrim : ∀ m ∈ n :: ns, String.ofList (trimBraces (placeholder m).toList) = m := by
      intro m hm
      rw [(h m hm).trimBraces_placeholder, String.ofList_toList]
    rw [templateNames, ht, Command.split_toText (placeholder_wellFormed h)]
    dsimp only
    rw [hf, List.takeWhile_eq_self_iff.mpr hne, List.map_map]
    exact (List.map_congr_left htrim).trans (List.map_id' _)

/-! ## Binding -/

/-- The keys are the names, bound by position; a name without a parameter is bound to the empty text. -/
structure Binds (vars : Dictionary String String) (names params : List String) : Prop where
  mem_keys : ∀ key, key ∈ vars.keys ↔ key ∈ names
  get?_eq : ∀ i (h : i < names.length), vars.get? names[i] = some (params[i]?.getD "")

theorem getElem?_bind : ∀ (names params : List String) (i : Nat),
    (bind names params)[i]? = names[i]?.map fun n => (n, params[i]?.getD "")
  | [], params, i => by cases params <;> simp [bind]
  | n :: ns, [], i => by
    cases i with
    | zero => simp [bind]
    | succ i => simpa [bind] using getElem?_bind ns [] i
  | n :: ns, p :: ps, i => by
    cases i with
    | zero => simp [bind]
    | succ i => simpa [bind] using getElem?_bind ns ps i

theorem map_fst_bind (names params : List String) : (bind names params).map Prod.fst = names := by
  apply List.ext_getElem?
  intro i
  rw [List.getElem?_map, getElem?_bind, Option.map_map]
  cases names[i]? <;> rfl

theorem bind_append : ∀ {names params : List String} (extra : List String), names.length ≤ params.length →
    bind names (params ++ extra) = bind names params
  | [], params, extra, _ => by cases params ++ extra <;> cases params <;> rfl
  | n :: ns, p :: ps, extra, h => by
    rw [List.cons_append, bind, bind, bind_append extra (Nat.le_of_succ_le_succ h)]

theorem binds_ofList {names : List String} (hn : names.Nodup) (params : List String) :
    Binds (.ofList (bind names params)) names params := by
  have hd : ((bind names params).map Prod.fst).Nodup := by rwa [map_fst_bind]
  constructor
  case mem_keys =>
    intro key
    rw [Dictionary.mem_keys_ofList hd, map_fst_bind]
  case get?_eq =>
    intro i h
    rw [Dictionary.get?_ofList_of_nodup hd]
    apply List.mem_of_getElem? (i := i)
    rw [getElem?_bind, List.getElem?_eq_getElem h]
    rfl

/-! ## Resolving -/

section
variable {k : Catalogue} {data : Bytes} {command : Command}

theorem resolve_of_command (h : Command.ofBytes data = .ok command) : k.resolve data =
    (k.get? command.name).elim (.error (.commandNotFound command.name))
      fun spec => .ok ⟨command, .ofList (bind (templateNames spec.template) command.params)⟩ := by
  simp only [resolve, h]
  cases k.get? command.name <;> rfl

theorem resolve_of_error {f : Failure} (h : Command.ofBytes data = .error f) : k.resolve data = .error f := by
  unfold resolve
  rw [h]

theorem resolve_of_get? (h : Command.ofBytes data = .ok command) {spec : CommandSpec}
    (hg : k.get? command.name = some spec) :
    k.resolve data = .ok ⟨command, .ofList (bind (templateNames spec.template) command.params)⟩ := by
  rw [resolve_of_command h, hg, Option.elim_some]

theorem resolve_of_not_found (h : Command.ofBytes data = .ok command) (hg : k.get? command.name = none) :
    k.resolve data = .error (.commandNotFound command.name) := by
  rw [resolve_of_command h, hg, Option.elim_none]

/-- Only what is registered under the name of the payload counts. -/
theorem resolve_congr {k' : Catalogue} (h : Command.ofBytes data = .ok command)
    (hg : k.get? command.name = k'.get? command.name) : k.resolve data = k'.resolve data := by
  rw [resolve_of_command h, resolve_of_command h, hg]

end

/-- **Parameters are bound by position.** While a registration with a template of distinct names is in force,
every payload of its name resolves, with the names bound to its first parameters; further parameters change
nothing. A name with no registration in force is not found, a payload that is no command fails as it does
by itself, and calls on other names make no difference. -/
theorem resolve_binds (cs : List Call) (data : Bytes) :
    (∀ (spec : CommandSpec) (names : List String), InForce cs spec → spec.template = templateOf names →
      names.Nodup → (∀ n ∈ names, Nameable n) →
      ((∃ i, (empty.calls cs).resolve data = .ok i ∧ i.command.name = spec.name) ↔
        ∃ command, Command.ofBytes data = .ok command ∧ command.name = spec.name) ∧
      ∀ command, Command.ofBytes data = .ok command → command.name = spec.name →
        ∃ vars, (empty.calls cs).resolve data = .ok ⟨command, vars⟩ ∧ Binds vars names command.params ∧
          ∀ extra data', names.length ≤ command.params.length →
            Command.ofBytes data' = .ok ⟨command.name, command.params ++ extra⟩ →
            (empty.calls cs).resolve data' = .ok ⟨⟨command.name, command.params ++ extra⟩, vars⟩) ∧
    (∀ command, Command.ofBytes data = .ok command → (∀ spec, InForce cs spec → spec.name ≠ command.name) →
      (empty.calls cs).resolve data = .error (.commandNotFound command.name)) ∧
    (∀ f, Command.ofBytes data = .error f → (empty.calls cs).resolve data = .error f) ∧
    ∀ command, Command.ofBytes data = .ok command →
      (empty.calls (cs.filter (·.name = command.name))).resolve data = (empty.calls cs).resolve data := by
  refine ⟨fun spec names hf ht hn hp => ⟨⟨?_, ?_⟩, ?_⟩, ?_, fun f h => resolve_of_error h, ?_⟩
  · rintro ⟨i, hi, hname⟩
    exact ⟨i.command, command_of_resolve hi, hname⟩
  · rintro ⟨command, hc, hname⟩
    have hg := (get?_calls cs command.name spec).mpr ⟨hname.symm, hf⟩
    exact ⟨_, resolve_of_get? hc hg, hname⟩
  · intro command hc hname
    have hg := (get?_calls cs command.name spec).mpr ⟨hname.symm, hf⟩
    have hr := resolve_of_get? hc hg
    rw [ht, templateNames_templateOf hp] at hr
    refine ⟨_, hr, binds_ofList hn command.params, fun extra data' hl hc' => ?_⟩
    rw [resolve_of_get? hc' hg, ht, templateNames_templateOf hp, bind_append extra hl]
  · intro command hc hnone
    exact resolve_of_not_found hc ((get?_calls_eq_none cs command.name).mpr hnone)
  · intro command hc
    exact resolve_congr hc (get?_calls_filter cs command.name)

/-- One parameter for two names, after the template was replaced, and a name that is not registered any more. -/
theorem resolve_binds_missing_parameter : ∃ (cs : List Call) (spec : CommandSpec),
    InForce cs spec ∧ spec.template = templateOf ["game", "region"] ∧
    (∃ vars, (empty.calls cs).resolve (toBytes "players/42") = .ok ⟨⟨"players", ["42"]⟩, vars⟩ ∧
      vars.get? "game" = some "42" ∧ vars.get? "region" = some "" ∧ "id" ∉ vars.keys) ∧
    (empty.calls cs).resolve (toBytes "ping") = .error (.commandNotFound "ping") := by
  let spec : CommandSpec := ⟨"players", "\x7bgame\x7d/\x7bregion\x7d", "players online"⟩
  let cs : List Call :=
    [.register ⟨"players", "\x7bid\x7d", ""⟩, .register ⟨"ping", "", ""⟩, .register spec, .unregister "ping"]
  have hf : InForce cs spec := ⟨cs.take 2, .register spec, [.unregister "ping"], rfl, rfl, by decide⟩
  have ht : spec.template = templateOf ["game", "region"] := by decide +kernel
  have hp : ∀ n ∈ ["game", "region"], Nameable n := by
    intro n hn
    simp only [List.mem_cons, List.not_mem_nil, or_false] at hn
    rcases hn with rfl | rfl <;> constructor <;> decide
  have hc : Command.ofBytes (toBytes "players/42") = .ok ⟨"players", ["42"]⟩ := by rfl
  have hping : Command.ofBytes (toBytes "ping") = .ok ⟨"ping", []⟩ := by rfl
  obtain ⟨vars, hr, hb, -⟩ :=
    ((resolve_binds cs (toBytes "players/42")).1 spec _ hf ht (by decide) hp).2 _ hc rfl
  refine ⟨cs, spec, hf, ht, ⟨vars, hr, hb.get?_eq 0 (by decide), hb.get?_eq 1 (by decide), ?_⟩, ?_⟩
  · rw [hb.mem_keys]
    decide
  · have hnone : (empty.calls cs).get? "ping" = none := by decide +kernel
    exact (resolve_binds cs (toBytes "ping")).2.1 _ hping ((get?_calls_eq_none cs "ping").mp hnone)

end Catalogue

end Switchboard
