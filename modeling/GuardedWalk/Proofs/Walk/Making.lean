import GuardedWalk.Collect
import GuardedWalk.Proofs.Configuring
import GuardedWalk.Proofs.Run.Surroundings
import GuardedWalk.Proofs.Walk.Scene

/-!
# How walkers are made

A walker is made together with its token, its policy, its guard and what notifies its observers. All
these are new objects, and nothing that is there already changes. So a walker that has just been
made is put together as it should be, its token is idle, and every document stands as it is written.

## Main definitions

* `GuardedWalk.World.Additions` — some objects have been added and nothing else has happened.
* `GuardedWalk.Config.AsksFor` — the policy that a configuration asks for.

## Main results

* `GuardedWalk.Act.createPolicy_run` — what making a policy does.
* `GuardedWalk.Act.assembleWalker_run` — what making a walker does.
-/

set_option autoImplicit false

namespace GuardedWalk

variable {ε : Type}

namespace World

/-- Some objects have been added and nothing else has happened, as far as documents and observers
are concerned. -/
structure Additions (w w' : World ε) : Prop where
  nodes : w'.nodes = w.nodes
  methods : w'.methods = w.methods
  wrappers : w'.wrappers = w.wrappers
  sessions : w'.sessions = w.sessions
  noted : w'.noted = w.noted
  lists : w.lists.Grows id w'.lists
  tuples : w.tuples.Grows id w'.tuples
  observers : w.observers.Grows id w'.observers
  guards : ∀ g : Ref .guard, w.Unhidden (.guard g) → w'.Unhidden (.guard g)

variable {w w₁ w' : World ε} {root : Document} {D : Ref .list → Prop}

theorem Additions.refl (w : World ε) : Additions w w :=
  ⟨rfl, rfl, rfl, rfl, rfl, .refl _ _, .refl _ _, .refl _ _, fun _ hg => hg⟩

/-- Observers that are to be notified still are. -/
theorem Additions.legacy (h : Additions w w') {o : Ref .observer}
    (ho : (w.observers.get o).cls.kind = .legacy) : (w'.observers.get o).cls.kind = .legacy := by
  have hstored : o.index < w.observers.cells.size := by
    refine Nat.lt_of_not_le fun hle => ?_
    have hget : w.observers.get o = default := by
      simp [Store.get, Array.getElem?_eq_none hle]
    rw [hget] at ho
    cases ho
  have hsame := h.observers.2 o hstored
  simp only [id] at hsame
  rw [hsame]
  exact ho

theorem Additions.trans (h : Additions w w₁) (h' : Additions w₁ w') : Additions w w' where
  nodes := h'.nodes.trans h.nodes
  methods := h'.methods.trans h.methods
  wrappers := h'.wrappers.trans h.wrappers
  sessions := h'.sessions.trans h.sessions
  noted := h'.noted.trans h.noted
  lists := h.lists.trans h'.lists
  tuples := h.tuples.trans h'.tuples
  observers := h.observers.trans h'.observers
  guards g hg := h'.guards g (h.guards g hg)

/-- What is there already stays as it is. -/
theorem Additions.frame (h : Additions w w') :
    Frame (fun v => (∃ r, v = .node r) ∨ ∃ e, v = .event e) w w' where
  tuples := h.tuples
  methods := by rw [h.methods]; exact .refl _ _
  wrappers := by rw [h.wrappers]; exact .refl _ _
  nodes r := by rw [h.nodes]
  carried := by
    rintro _ (⟨r, rfl⟩ | ⟨e, rfl⟩) name _
    · rw [carried_of_nodes h.nodes]
    · simp [World.carried, World.own?, World.notedOf, h.noted]
  guards := h.guards
  sessionsSize := Nat.le_of_eq (congrArg (·.cells.size) h.sessions.symm)
  sessions s _ name _ _ _ := by simp [World.carried, World.own?, h.sessions]

/-- Documents stand as they are written. -/
theorem Additions.fits (h : Additions w w') (hd : root.Fits D w)
    (hb : ∀ l, D l → l.index < w.lists.cells.size) : root.Fits D w' := by
  refine hd.frame h.frame (fun d _ => h.frame.carried _ (.inl ⟨d.ref, rfl⟩))
    (fun d _ name l hl _ => ?_) fun d _ hc => hc.of_carried h.frame (carried_of_nodes h.nodes _)
  have hitems := h.lists.2 l (hb l hl)
  simp only [id] at hitems
  simp [World.items, hitems]

end World

/-- The policy that a configuration asks for, in a world: for the mode that leaves the answer to the
user it is the user's own, for the others one that answers as the mode says. -/
inductive Config.AsksFor (c : Config) (w : World ε) : Value → Prop where
  /-- The answer is left to the user. -/
  | custom (mode : c.foreignTraversal = .mode .custom) : AsksFor c w c.customPolicy
  /-- Attempts are refused. -/
  | reject (mode : c.foreignTraversal = .mode .reject) (p : Ref .policy)
    (body : (w.policies.get p).body = .reject) : AsksFor c w (.policy p)
  /-- Callers are suspended, for as long as the configuration says; nobody is so far. -/
  | park (mode : c.foreignTraversal = .mode .park) (p : Ref .policy) (k : Ref .lock)
    (d : Ref .dictionary)
    (body : w.policies.get p = ⟨.park, Policy.parking c.parkTimeout (.lock k) (.dictionary d)⟩)
    (unused : w.dictionaries.get d = .empty) : AsksFor c w (.policy p)
  /-- Attempts are reported, as loud as the configuration says. -/
  | record (mode : c.foreignTraversal = .mode .record) (p : Ref .policy)
    (body : (w.policies.get p).body = .record)
    (verbose : (w.policies.get p).attributes.value Policy.verboseField =
      c.attributes.value "verbose") : AsksFor c w (.policy p)

/-- Only policies and dictionaries matter for what a configuration asks for. -/
theorem Config.AsksFor.of_stores {c : Config} {w w' : World ε} {policy : Value}
    (h : c.AsksFor w policy) (hp : w'.policies = w.policies)
    (hd : w'.dictionaries = w.dictionaries) : c.AsksFor w' policy := by
  cases h with
  | custom mode => exact .custom mode
  | reject mode p body => exact .reject mode p (hp ▸ body)
  | park mode p k d body unused => exact .park mode p k d (hp ▸ body) (hd ▸ unused)
  | record mode p body verbose => exact .record mode p (hp ▸ body) (hp ▸ verbose)

namespace Act

variable {w : World ε} {r : Ref .config}

/-- A setting of a configuration is read. -/
theorem read_setting (hc : (w.configs.get r).Complete) {name : String}
    (hn : name ∈ Config.settingNames) :
    (Act.read (.config r) name).run w = (.ok ((w.configs.get r).attributes.value name), w) := by
  obtain ⟨v, hv⟩ := hc name hn
  have hm : w.member (.config r) name = .ok (.value v) := World.member_of_carried rfl hv
  rw [Act.read_run hm, Attributes.value, hv]
  rfl

theorem newParkPolicy_run (timeout : Value) (w : World ε) :
    ∃ p ps ks ds k d, (newParkPolicy timeout).run w =
        (.ok (.policy p), { w with policies := ps, locks := ks, dictionaries := ds }) ∧
      ps.get p = ⟨.park, Policy.parking timeout (.lock k) (.dictionary d)⟩ ∧
        ds.get d = .empty := by
  refine ⟨w.policies.next, _, _, _, w.locks.next, w.dictionaries.next, rfl, ?_, ?_⟩ <;>
    rw [Store.get_add, if_pos rfl]

theorem newRecordPolicy_run (verbose : Value) (w : World ε) :
    ∃ p ps ks, (newRecordPolicy verbose).run w =
        (.ok (.policy p), { w with policies := ps, locks := ks, lists := w.lists.add #[] }) ∧
      (ps.get p).body = .record ∧ (ps.get p).attributes.value Policy.verboseField = verbose := by
  refine ⟨w.policies.next, _, _, rfl, ?_, ?_⟩
  · rw [Store.get_add, if_pos rfl]
  · rw [Store.get_add, if_pos rfl]
    rfl

/-- The policy that a configuration asks for is made, and this adds nothing but policies, locks,
dictionaries and lists. -/
theorem createPolicy_run (hc : (w.configs.get r).Complete)
    (hm : World.isMode (w.configs.get r).foreignTraversal = true) :
    ∃ policy ps ks ds ls, (createPolicy (.config r)).run w =
        (.ok policy, { w with policies := ps, locks := ks, dictionaries := ds, lists := ls }) ∧
      w.lists.Grows id ls ∧ (w.configs.get r).AsksFor
        { w with policies := ps, locks := ks, dictionaries := ds, lists := ls } policy := by
  have hread : ∀ name ∈ Config.settingNames, (Act.read (.config r) name).run w =
      (.ok ((w.configs.get r).attributes.value name), w) := fun name => read_setting hc
  have hmode := hread "foreign_traversal" (by simp [Config.settingNames])
  simp only [Config.foreignTraversal] at hm
  unfold createPolicy
  rw [Act.run_bind, hmode]
  cases hv : (w.configs.get r).attributes.value "foreign_traversal" with
  | mode m =>
    cases m with
    | custom =>
      exact ⟨_, w.policies, w.locks, w.dictionaries, w.lists,
        hread "custom_policy" (by simp [Config.settingNames]), .refl _ _, .custom hv⟩
    | reject =>
      refine ⟨_, _, _, _, _, rfl, .refl _ _, .reject hv w.policies.next ?_⟩
      rw [Store.get_add, if_pos rfl]
    | park =>
      obtain ⟨p, ps, ks, ds, k, d, hrun, hbody, hunused⟩ :=
        newParkPolicy_run ((w.configs.get r).attributes.value "park_timeout") w
      refine ⟨.policy p, ps, ks, ds, w.lists, ?_, .refl _ _, .park hv p k d hbody hunused⟩
      simp only [Act.run_bind, hread "park_timeout" (by simp [Config.settingNames]), hrun]
    | record =>
      obtain ⟨p, ps, ks, hrun, hbody, hverbose⟩ :=
        newRecordPolicy_run ((w.configs.get r).attributes.value "verbose") w
      refine ⟨.policy p, ps, ks, w.dictionaries, _, ?_, Store.grows_add id w.lists #[],
        .record hv p hbody hverbose⟩
      simp only [Act.run_bind, hread "verbose" (by simp [Config.settingNames]), hrun]
  | _ => rw [hv] at hm; cases hm

/-- The world after a walker has been made: `ps`, `ks`, `ds` and `ls` are what the policy has
added. -/
def assembled (w : World ε) (observers : List Value)
    (config stepMother timeout policy quiet : Value) (ps : Store .policy Policy)
    (ks : Store .lock Unit) (ds : Store .dictionary Dictionary) (ls : Store .list (Array Value)) :
    World ε :=
  let y := w.conditions.next
  let notified := (w.tuples.add observers.toArray).next
  { w with
    policies := ps, locks := ks, dictionaries := ds, lists := ls
    conditions := w.conditions.add default
    tokens := w.tokens.add (.new timeout (.condition y y))
    guards := w.guards.add
      (.new (.walker w.walkers.next) (.token w.tokens.next) policy quiet)
    tuples := (w.tuples.add observers.toArray).add (w.notified observers).toArray
    broadcasts := w.broadcasts.add
      (.new (.tuple w.tuples.next) (.guard w.guards.next) (.tuple notified))
    walkers := (w.walkers.add default).set w.walkers.next
      (.new config stepMother (.token w.tokens.next) policy (.guard w.guards.next)
        (.adapter w.broadcasts.next)) }

/-- An act that goes well hands its result on. -/
theorem run_bind_of_ok {α β : Type} {a : Act ε α} {k : α → Act ε β} {w w' : World ε} {x : α}
    {y : Except Failure β × World ε} (h : a.run w = (.ok x, w')) (hk : (k x).run w' = y) :
    (a >>= k).run w = y := by
  rw [Act.run_bind, h]
  exact hk

theorem newToken_run (timeout : Value) (w : World ε) :
    (newToken timeout).run w =
      (.ok (.token w.tokens.next), { w with
        conditions := w.conditions.add default
        tokens := w.tokens.add
          (.new timeout (.condition w.conditions.next w.conditions.next)) }) := rfl

theorem newBroadcast_run (observers : List Value) (guard : Value) (w : World ε) :
    (newBroadcast observers guard).run w =
      (.ok (.adapter w.broadcasts.next), { w with
        tuples := (w.tuples.add observers.toArray).add (w.notified observers).toArray
        broadcasts := w.broadcasts.add (.new (.tuple w.tuples.next) guard
          (.tuple (w.tuples.add observers.toArray).next)) }) := rfl

/-- What making a walker comes to. -/
theorem assembleWalker_eq (hc : (w.configs.get r).Complete)
    (hm : World.isMode (w.configs.get r).foreignTraversal = true) (observers : List Value)
    (stepMother : Value) :
    ∃ policy quiet ps ks ds ls,
      (assembleWalker observers (.config r) stepMother).run w =
        (.ok (.walker w.walkers.next), assembled w observers (.config r) stepMother
          (w.configs.get r).ownershipTimeout policy quiet ps ks ds ls) ∧
      w.lists.Grows id ls ∧ (w.configs.get r).AsksFor (assembled w observers (.config r) stepMother
        (w.configs.get r).ownershipTimeout policy quiet ps ks ds ls) policy := by
  let w₁ : World ε := { w with walkers := w.walkers.add default }
  have hwalker : (make fun w => (w.walkers.next, { w with walkers := w.walkers.add default }) :
      Act ε (Ref .walker)).run w = (.ok w.walkers.next, w₁) := rfl
  let timeout := (w.configs.get r).ownershipTimeout
  let w₂ : World ε := { w₁ with
    conditions := w.conditions.add default
    tokens := w.tokens.add
      (.new timeout (.condition w.conditions.next w.conditions.next)) }
  have htimeout : (Act.read (.config r) "ownership_timeout").run w₁ = (.ok timeout, w₁) := by
    have hn : "ownership_timeout" ∈ Config.settingNames := by simp [Config.settingNames]
    exact read_setting (w := w₁) hc hn
  obtain ⟨policy, ps, ks, ds, ls, hpolicy, hls, hasks⟩ := createPolicy_run (w := w₂) hc hm
  let w₃ : World ε := { w₂ with policies := ps, locks := ks, dictionaries := ds, lists := ls }
  let quiet := (w.configs.get r).attributes.value "quiet"
  have hquiet : (Act.read (.config r) "quiet").run w₃ = (.ok quiet, w₃) := by
    have hn : "quiet" ∈ Config.settingNames := by simp [Config.settingNames]
    exact read_setting (w := w₃) hc hn
  refine ⟨policy, quiet, ps, ks, ds, ls, ?_, hls, hasks.of_stores rfl rfl⟩
  refine run_bind_of_ok hwalker ?_
  refine run_bind_of_ok htimeout ?_
  refine run_bind_of_ok (newToken_run timeout w₁) ?_
  refine run_bind_of_ok hpolicy ?_
  refine run_bind_of_ok hquiet ?_
  refine run_bind_of_ok rfl ?_
  refine run_bind_of_ok (newBroadcast_run ..) ?_
  rfl

section Assembled

variable {observers : List Value} {os : List (Ref .observer)}
  {config stepMother timeout policy quiet : Value}
  {ps : Store .policy Policy} {ks : Store .lock Unit} {ds : Store .dictionary Dictionary}
  {ls : Store .list (Array Value)}

theorem carried_assembled_walker :
    (assembled w observers config stepMother timeout policy quiet ps ks ds ls).carried
        (.walker w.walkers.next) =
      [(Walker.configField, config), (Walker.stepMotherField, stepMother),
       (Walker.ownershipField, .token w.tokens.next), (Walker.policyField, policy),
       (Walker.guardField, .guard w.guards.next),
       (Walker.broadcastField, .adapter w.broadcasts.next)] := by
  simp [World.carried, World.own?, assembled, Walker.new]

theorem carried_assembled_guard :
    (assembled w observers config stepMother timeout policy quiet ps ks ds ls).carried
        (.guard w.guards.next) =
      [(Guard.walkerField, .walker w.walkers.next), (Guard.ownershipField, .token w.tokens.next),
       (Guard.policyField, policy), (Guard.quietField, quiet)] := by
  simp [World.carried, World.own?, assembled, Guard.new, Store.get_add]

theorem carried_assembled_adapter :
    (assembled w observers config stepMother timeout policy quiet ps ks ds ls).carried
        (.adapter w.broadcasts.next) =
      [(Broadcast.observersField, .tuple w.tuples.next),
       (Broadcast.guardField, .guard w.guards.next),
       (Broadcast.notifiedField, .tuple (w.tuples.add observers.toArray).next)] := by
  simp [World.carried, World.own?, assembled, Broadcast.new, Store.get_add]

theorem carried_assembled_token :
    (assembled w observers config stepMother timeout policy quiet ps ks ds ls).carried
        (.token w.tokens.next) =
      [(Token.timeoutField, timeout),
       (Token.conditionField, .condition w.conditions.next w.conditions.next),
       (Token.sessionField, .none), (Token.depthField, .int 0), (Token.generationField, .int 0),
       (Token.waitingField, .int 0)] := by
  simp [World.carried, World.own?, assembled, Token.new, Store.get_add]

/-- Making a walker only adds objects. -/
theorem additions_assembled (hls : w.lists.Grows id ls) :
    w.Additions
      (assembled w observers config stepMother timeout policy quiet ps ks ds ls) where
  nodes := rfl
  methods := rfl
  wrappers := rfl
  sessions := rfl
  noted := rfl
  lists := hls
  tuples := (Store.grows_add id ..).trans (Store.grows_add id ..)
  observers := .refl _ _
  guards g hg := by
    by_cases hn : g = w.guards.next
    · subst hn
      refine World.unhidden_of_names ?_
      rw [carried_assembled_guard]
      rfl
    · intro m hm
      have hcarried : (assembled w observers config stepMother timeout policy quiet ps ks ds
          ls).carried (.guard g) = w.carried (.guard g) := by
        simp [World.carried, World.own?, assembled, Store.get_add, hn]
      rw [hcarried]
      exact hg m hm

/-- Who takes part in the walks of a walker that is about to be made. -/
def castFor (w : World ε) (os : List (Ref .observer)) (timeout : Value) (t : Thread) : Cast where
  walker := w.walkers.next
  token := w.tokens.next
  guard := w.guards.next
  adapter := w.broadcasts.next
  notified := (w.tuples.add (os.map Value.observer).toArray).next
  observers := os
  timeout
  thread := t

theorem notified_legacy (hos : ∀ o ∈ os, (w.observers.get o).cls.kind = .legacy) :
    w.notified (os.map .observer) = os.map .observer := by
  rw [World.notified, List.filter_eq_self]
  intro v hv
  obtain ⟨o, ho, rfl⟩ := List.mem_map.1 hv
  simp [World.observerKind, hos o ho]

/-- What the tuple is that comes after one more does not depend on what is in that one. -/
theorem next_add_tuple (vs vs' : List Value) :
    (w.tuples.add vs.toArray).next = (w.tuples.add vs'.toArray).next := by
  simp [Store.next, Store.add]

/-- A walker that has just been made is put together as it should be, if some of the values given
are the observers that are to be notified. -/
theorem assembled_of_notified (hos : w.notified observers = os.map .observer)
    (hevents : ∀ e : Event, (w.carried (.event e)).get? "_value_" = some (.text e.methodName))
    (htimeout : ∃ n, timeout.number? = some n) (t : Thread) :
    (castFor w os timeout t).Assembled
      (assembled w observers config stepMother timeout policy quiet ps ks ds ls) := by
  refine {
    ownership := ?ownership, ownGuard := ?ownGuard, broadcast := ?broadcast
    guardWalker := ?guardWalker, guardToken := ?guardToken, adapterGuard := ?adapterGuard
    adapterNotified := ?adapterNotified, inTuples := ?inTuples, notified := ?notified
    walkerOpen := World.unhidden_of_names ?walkerOpen
    guardOpen := World.unhidden_of_names ?guardOpen
    adapterOpen := World.unhidden_of_names ?adapterOpen
    timeout := htimeout, events := hevents }
  case ownership | ownGuard | broadcast | walkerOpen =>
    simp only [castFor, carried_assembled_walker]
    rfl
  case guardWalker | guardToken | guardOpen =>
    simp only [castFor, carried_assembled_guard]
    rfl
  case adapterGuard | adapterNotified | adapterOpen =>
    simp only [castFor, carried_assembled_adapter, next_add_tuple observers (os.map .observer)]
    rfl
  case inTuples => simp [castFor, assembled, Store.next, Store.add]
  case notified =>
    simp [castFor, assembled, World.row, Store.get_add, next_add_tuple observers (os.map .observer),
      hos]

/-- The same, if all of them are. -/
theorem assembled_assembled (hos : ∀ o ∈ os, (w.observers.get o).cls.kind = .legacy)
    (hevents : ∀ e : Event, (w.carried (.event e)).get? "_value_" = some (.text e.methodName))
    (htimeout : ∃ n, timeout.number? = some n) (t : Thread) :
    (castFor w os timeout t).Assembled
      (assembled w (os.map .observer) config stepMother timeout policy quiet ps ks ds ls) :=
  assembled_of_notified (notified_legacy hos) hevents htimeout t

/-- The token of a walker that has just been made is idle. -/
theorem assembled_held (t : Thread) :
    Held (assembled w observers config stepMother timeout policy quiet ps ks ds ls)
      (castFor w os timeout t) .idle where
  unhidden := by
    refine World.unhidden_of_names ?_
    simp only [castFor, carried_assembled_token]
    rfl
  shows := by
    refine ⟨⟨none, 0, 0, 0, w.conditions.next, [], timeout⟩, ?_, rfl, rfl⟩
    refine {
      session := ?session, depth := ?depth, generation := ?generation, waiting := ?waiting
      condition := ⟨w.conditions.next, ?condition⟩, asleep := ?asleep, timeout := ?timeout
      runs := by simp }
    case asleep =>
      simp only [assembled, Store.get_add, if_true]
      rfl
    all_goals
      simp only [castFor, World.ownValue_eq, carried_assembled_token]
      rfl

end Assembled

/-- **A walker is made** of some values and of a configuration that has been found consistent: it is
put together as it should be, its token is idle, and objects have been added. -/
theorem assembleWalker_run (hc : (w.configs.get r).Complete)
    (hp : (w.configs.get r).Consistent) {observers : List Value} {os : List (Ref .observer)}
    (hos : w.notified observers = os.map .observer)
    (hevents : ∀ e : Event, (w.carried (.event e)).get? "_value_" = some (.text e.methodName))
    (stepMother : Value) (t : Thread) :
    ∃ X w', (assembleWalker observers (.config r) stepMother).run w =
        (.ok (.walker X.walker), w') ∧
      X.observers = os ∧ X.timeout = (w.configs.get r).ownershipTimeout ∧ X.thread = t ∧
      X.Assembled w' ∧ Held w' X .idle ∧ w.Additions w' := by
  obtain ⟨n, htimeout, -⟩ := hp.ownershipTimeout
  obtain ⟨policy, quiet, ps, ks, ds, ls, hrun, hls, -⟩ :=
    assembleWalker_eq hc hp.mode observers stepMother
  exact ⟨castFor w os (w.configs.get r).ownershipTimeout t, _, hrun, rfl, rfl, rfl,
    assembled_of_notified hos hevents ⟨n, htimeout⟩ t, assembled_held t, additions_assembled hls⟩

end Act

/-! ## Walkers from configurations -/

/-- A walker can be made of a configuration that is found to have no problems, or of none at all,
and competing threads then wait for it as long as a timeout says. -/
inductive World.Takes (w : World ε) : (config timeout : Value) → Prop where
  /-- None is given. -/
  | default : Takes w .none (.float .zero)
  /-- One is given, and its check finds nothing. -/
  | given (r : Ref .config) (complete : (w.configs.get r).Complete)
    (accepted : w.problems (w.configs.get r) = .ok []) (unhidden : w.Unhidden (.config r)) :
    Takes w (.config r) (w.configs.get r).ownershipTimeout

/-- Whether a walker can be made of a configuration does not depend on anything else. -/
theorem World.Takes.of_configs {w w' : World ε} {config timeout : Value}
    (h : w.Takes config timeout) (hc : w'.configs = w.configs) : w'.Takes config timeout := by
  cases h with
  | default => exact .default
  | given r complete accepted unhidden =>
    rw [← hc] at complete accepted ⊢
    refine .given r complete (World.problems_eq_nil_iff.2 (World.problems_eq_nil_iff.1 accepted)) ?_
    simpa only [World.Unhidden, World.carried, World.own?, hc] using unhidden

namespace Walk

open Surroundings

variable {κ : Type} {F : Foreign ε κ} {t : Thread} {σ : Moment ε κ} {r : Ref .config}

/-- The check of a configuration comes to a list of its problems. -/
theorem reply_validate_ok {obstruct : Obstruction ε} {w : World ε} {ps : List String}
    (hp : w.problems (w.configs.get r) = .ok ps) :
    (Reply.reply obstruct (.config r) .validate []).run w =
      (.ok (.list w.lists.next),
        { w with lists := w.lists.add (ps.map Value.text).toArray }) := by
  simp only [Reply.reply, Act.run_bind, Act.run_look, hp]
  rfl

/-- A configuration is asked to check itself. -/
theorem validate_yields (hu : σ.world.Unhidden (.config r)) {o : Outcome} {w' : World ε}
    (hrun : (Reply.reply F.obstruct (.config r) .validate []).run σ.world = (o, w'))
    {Q : Outcome → Moment ε κ → Prop}
    (hQ : ∀ σ' : Moment ε κ, σ'.world = w' → σ'.window = .open →
      σ'.calls = σ.calls ++ [.send (.config r) .validate []] → Q o σ') :
    (alone (Walk.body F t)).Yields (.free ε κ) σ (Walk.send (.config r) .validate []) Q := by
  have hm : σ.world.member (.config r) Message.validate.name = .ok (.bound .validate) :=
    World.member_of_understands rfl (hu .validate (by simp))
  refine .invoke rfl trivial ?_
  refine .bind (alone_look hm ?_)
  refine .bind (alone_look (r := .ok none) rfl ?_)
  exact alone_step hrun (hQ _ rfl rfl rfl)

/-- A walker is made of a configuration of its own if none is given. -/
theorem configOr_yields {config timeout : Value} (hσ : σ.window = .open)
    (hc : σ.world.Takes config timeout) {Q : Outcome → Moment ε κ → Prop}
    (hQ : ∀ r, ∀ σ' : Moment ε κ, σ.world.Additions σ'.world →
      (σ'.world.configs.get r).Complete → (σ'.world.configs.get r).Consistent →
      σ'.world.Unhidden (.config r) → (σ'.world.configs.get r).ownershipTimeout = timeout →
      σ'.window = .open → σ'.calls = σ.calls → Q (.ok (.config r)) σ') :
    (alone (Walk.body F t)).Yields (.free ε κ) σ (configOr config) Q := by
  cases hc with
  | default =>
    let c := Config.plain (.dictionary σ.world.dictionaries.next)
    let w' : World ε := { σ.world with
      dictionaries := σ.world.dictionaries.add .empty
      configs := σ.world.configs.add c }
    have hget : w'.configs.get σ.world.configs.next = c := by simp [w', Store.get_add]
    refine alone_step (r := .ok (.config σ.world.configs.next)) (w := w') rfl ?_
    refine hQ _ _ ?_ ?_ ?_ ?_ ?_ ?_ rfl
    · exact ⟨rfl, rfl, rfl, rfl, rfl, .refl _ _, .refl _ _, .refl _ _, fun _ hg => hg⟩
    · exact hget ▸ Config.complete_plain _
    · exact hget ▸ Config.consistent_plain _
    · refine World.unhidden_of_names ?_
      show (((w'.configs.get σ.world.configs.next).attributes).map Prod.fst).all _ = true
      rw [hget]
      rfl
    · show (w'.configs.get σ.world.configs.next).ownershipTimeout = _
      rw [hget]
      rfl
    · simp [Moment.stepped, hσ, Window.next]
  | given r complete accepted unhidden =>
    have hconsistent := World.problems_eq_nil_iff.1 accepted
    exact .pure (hQ r σ (.refl _) complete hconsistent unhidden rfl hσ rfl)

/-- **A walker is made** of some values and of a configuration without problems. The observers that
are to be notified are known, whatever has been added meanwhile. -/
theorem newWalker_yields_of_notified {config timeout : Value} (hσ : σ.window = .open)
    (hc : σ.world.Takes config timeout) {observers : List Value} {os : List (Ref .observer)}
    (hos : ∀ w, σ.world.Additions w → w.notified observers = os.map .observer)
    (hevents : ∀ e : Event,
      (σ.world.carried (.event e)).get? "_value_" = some (.text e.methodName))
    (stepMother : Value) {Q : Outcome → Moment ε κ → Prop}
    (hQ : ∀ X r, ∀ σ' : Moment ε κ, X.observers = os → X.timeout = timeout → X.thread = t →
      X.Assembled σ'.world → Held σ'.world X .idle → σ.world.Additions σ'.world →
      σ'.window = .open → σ'.calls = σ.calls ++ [.send (.config r) .validate []] →
      Q (.ok (.walker X.walker)) σ') :
    (alone (Walk.body F t)).Yields (.free ε κ) σ (newWalker observers config stepMother) Q := by
  refine .bind (configOr_yields hσ hc fun r σ₁ ha₁ hcomplete hconsistent hu ht hσ₁ hcalls => ?_)
  have haccepted : σ₁.world.problems (σ₁.world.configs.get r) = .ok [] :=
    World.problems_eq_nil_iff.2 hconsistent
  refine .bind (validate_yields hu (reply_validate_ok haccepted) fun σ₂ hw₂ hσ₂ hcalls₂ => ?_)
  have ha₂ : σ₁.world.Additions σ₂.world := by
    rw [hw₂]
    exact ⟨rfl, rfl, rfl, rfl, rfl, Store.grows_add id .., .refl _ _, .refl _ _, fun _ hg => hg⟩
  have hempty : σ₂.world.isTrue (.list σ₁.world.lists.next) = .ok false := by
    rw [hw₂]
    simp [World.isTrue, Store.get_add]
  refine .bind (alone_look hempty ?_)
  have ha := ha₁.trans ha₂
  have hevents₂ : ∀ e : Event,
      (σ₂.world.carried (.event e)).get? "_value_" = some (.text e.methodName) := by
    intro e
    rw [ha.frame.carried _ (.inr ⟨e, rfl⟩) "_value_" (by decide)]
    exact hevents e
  have hsame : σ₂.world.configs.get r = σ₁.world.configs.get r := by rw [hw₂]
  obtain ⟨X, w', hrun, hXos, hXt, hXthread, hX, hheld, ha'⟩ :=
    Act.assembleWalker_run (hsame ▸ hcomplete) (hsame ▸ hconsistent) (hos _ ha) hevents₂
      stepMother t
  refine alone_step hrun (hQ X r _ hXos (hXt.trans ?_) hXthread hX hheld (ha.trans ha') ?_ ?_)
  · rw [hw₂]
    exact ht
  · simp [Moment.stepped, hσ₂, Window.next]
  · simp [Moment.stepped, hcalls₂, hcalls]

/-- The same, if all of them are observers that are to be notified. -/
theorem newWalker_yields {config timeout : Value} (hσ : σ.window = .open)
    (hc : σ.world.Takes config timeout) {os : List (Ref .observer)}
    (hos : ∀ o ∈ os, (σ.world.observers.get o).cls.kind = .legacy)
    (hevents : ∀ e : Event,
      (σ.world.carried (.event e)).get? "_value_" = some (.text e.methodName))
    (stepMother : Value) {Q : Outcome → Moment ε κ → Prop}
    (hQ : ∀ X r, ∀ σ' : Moment ε κ, X.observers = os → X.timeout = timeout → X.thread = t →
      X.Assembled σ'.world → Held σ'.world X .idle → σ.world.Additions σ'.world →
      σ'.window = .open → σ'.calls = σ.calls ++ [.send (.config r) .validate []] →
      Q (.ok (.walker X.walker)) σ') :
    (alone (Walk.body F t)).Yields (.free ε κ) σ
      (newWalker (os.map .observer) config stepMother) Q :=
  newWalker_yields_of_notified hσ hc
    (fun _ ha => Act.notified_legacy fun o ho => ha.legacy (hos o ho)) hevents stepMother hQ

end Walk

end GuardedWalk
