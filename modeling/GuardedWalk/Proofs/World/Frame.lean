import GuardedWalk.Guard
import GuardedWalk.Proofs.World.Carried

/-!
# What stays as it is

Objects that are never changed once they are there, and attributes that only guards change, are
found again later, whatever has happened meanwhile. A frame says that of two worlds, the second of
which comes later, and names the values whose attributes it speaks of.

## Main definitions

* `GuardedWalk.Store.Grows` — a store has all its objects still, as far as a view shows.
* `GuardedWalk.Node.marks` — the attributes that guards change.
* `GuardedWalk.Session.Amends` — a session changes only what it says about its walk.
* `GuardedWalk.World.Frame` — what is as before, apart from marks.
* `GuardedWalk.World.Mild` — the same for all values but those that change in a walk.
* `GuardedWalk.World.Still` — the same for tokens as well.

## Main results

* `GuardedWalk.World.Frame.trans`, `Mild.trans`, `Still.trans` — frames add up.
* `GuardedWalk.World.still_setMark`, `still_storeTuple` and others — what leaves everything alone.
-/

set_option autoImplicit false

namespace GuardedWalk

namespace Store

variable {k : Kind} {α β : Type} [Inhabited α]

/-- A store has all its objects still, as far as a view shows. -/
def Grows (view : α → β) (s s' : Store k α) : Prop :=
  s.cells.size ≤ s'.cells.size ∧
    ∀ r : Ref k, r.index < s.cells.size → view (s'.get r) = view (s.get r)

theorem Grows.refl (view : α → β) (s : Store k α) : Grows view s s :=
  ⟨Nat.le_refl _, fun _ _ => rfl⟩

theorem Grows.trans {view : α → β} {s s' s'' : Store k α} (h : Grows view s s')
    (h' : Grows view s' s'') : Grows view s s'' := by
  refine ⟨Nat.le_trans h.1 h'.1, fun r hr => ?_⟩
  rw [h'.2 r (Nat.lt_of_lt_of_le hr h.1), h.2 r hr]

theorem grows_add (view : α → β) (s : Store k α) (a : α) : Grows view s (s.add a) := by
  refine ⟨by simp [add], fun r hr => ?_⟩
  have hn : r ≠ s.next := by
    rintro rfl
    exact Nat.lt_irrefl _ hr
  simp [get_add, hn]

theorem size_modify (s : Store k α) (r : Ref k) (f : α → α) :
    s.cells.size ≤ (s.modify r f).cells.size := by
  unfold modify set
  split
  · simp
  · simp only [Array.size_push, Array.size_append, Array.size_replicate]
    omega

theorem size_modify_of_lt (s : Store k α) {r : Ref k} (hr : r.index < s.cells.size) (f : α → α) :
    (s.modify r f).cells.size = s.cells.size := by
  simp [modify, hr]

/-- A change that does not show in some view of an object shows there of none. -/
theorem view_get_modify (view : α → β) (s : Store k α) (r r' : Ref k) {f : α → α}
    (hf : ∀ a, view (f a) = view a) : view ((s.modify r f).get r') = view (s.get r') := by
  rw [get_modify]
  split
  · rename_i h
    rw [hf, h]
  · rfl

theorem grows_modify {view : α → β} (s : Store k α) (r : Ref k) {f : α → α}
    (hf : ∀ a, view (f a) = view a) : Grows view s (s.modify r f) :=
  ⟨size_modify s r f, fun r' _ => view_get_modify view s r r' hf⟩

end Store

/-- The attributes that guards change. -/
def Node.marks : List String := [Node.acceptField, Node.guardField]

theorem Node.acceptField_mem_marks : Node.acceptField ∈ Node.marks := by simp [Node.marks]

theorem Node.guardField_mem_marks : Node.guardField ∈ Node.marks := by simp [Node.marks]

/-- Whether the attributes of a value stay in a walk. Those of tokens and sessions change, and
wrappers are made meanwhile. -/
def Value.isSteady : Value → Bool
  | token _ | session _ | wrapper _ => false
  | _ => true

/-- What a wrapper was made for and what it hides. -/
def Wrapper.content (x : Wrapper) : Value × Value := (x.node, x.inner)

theorem Message.name_ne_mark {m : Message} (hm : m ≠ .accept) : m.name ∉ Node.marks := by
  have hg : m.name ≠ Node.guardField := by
    cases m
    case entry e => cases e <;> decide
    all_goals decide
  have ha : m.name ≠ Node.acceptField := by
    intro h
    have := congrArg Message.ofName? h
    rw [Node.acceptField, Message.ofName?_name, Message.ofName?_name] at this
    exact hm (Option.some.inj this)
  simp [Node.marks, ha, hg]

namespace Session

/-- A session is changed only in what it says about its walk: in its outline table, and in whether
it is closed. -/
def Amends (f : Session → Session) : Prop :=
  ∀ (a : Session) (name : String), name ≠ tableField → name ≠ closedField →
    (f a).attributes.get? name = a.attributes.get? name

theorem amends_close : Amends close := fun a name ht hc => by
  simp [close, Attributes.get?_set, ht, hc]

theorem amends_setTable (table : Value) :
    Amends fun a => ⟨a.attributes.set tableField table⟩ := fun a name ht _ => by
  simp [Attributes.get?_set, ht]

end Session

namespace World

variable {ε : Type}

/-- What is as before: objects that are never changed, the classes of nodes, and the attributes of
some values and of sessions, apart from marks and from what a session says about its walk. -/
structure Frame (V : Value → Prop) (w w' : World ε) : Prop where
  tuples : w.tuples.Grows id w'.tuples
  methods : w.methods.Grows id w'.methods
  wrappers : w.wrappers.Grows Wrapper.content w'.wrappers
  nodes : ∀ r, (w'.nodes.get r).cls = (w.nodes.get r).cls
  carried : ∀ v, V v → ∀ name ∉ Node.marks,
    (w'.carried v).get? name = (w.carried v).get? name
  guards : ∀ g : Ref .guard, w.Unhidden (.guard g) → w'.Unhidden (.guard g)
  sessionsSize : w.sessions.cells.size ≤ w'.sessions.cells.size
  sessions : ∀ s : Ref .session, s.index < w.sessions.cells.size → ∀ name ∉ Node.marks,
    name ≠ Session.tableField → name ≠ Session.closedField →
    (w'.carried (.session s)).get? name = (w.carried (.session s)).get? name

/-- What a step of a walk leaves alone. -/
structure Mild (w w' : World ε) : Prop extends Frame (fun v => v.isSteady = true) w w' where
  lists : w'.lists = w.lists
  observers : ∀ o, (w'.observers.get o).cls = (w.observers.get o).cls
  policies : ∀ p, (w'.policies.get p).body = (w.policies.get p).body
  foreign : w'.foreign = w.foreign

/-- What a step of a walk leaves alone that does not concern a token. -/
structure Still (w w' : World ε) : Prop extends Mild w w' where
  tokens : ∀ k : Ref .token, ∀ name ∉ Node.marks,
    (w'.carried (.token k)).get? name = (w.carried (.token k)).get? name

theorem Frame.refl (V : Value → Prop) (w : World ε) : Frame V w w where
  tuples := .refl _ _
  methods := .refl _ _
  wrappers := .refl _ _
  nodes _ := rfl
  carried _ _ _ _ := rfl
  guards _ h := h
  sessionsSize := Nat.le_refl _
  sessions _ _ _ _ _ _ := rfl

theorem Frame.trans {V : Value → Prop} {w w' w'' : World ε} (h : Frame V w w')
    (h' : Frame V w' w'') : Frame V w w'' where
  tuples := h.tuples.trans h'.tuples
  methods := h.methods.trans h'.methods
  wrappers := h.wrappers.trans h'.wrappers
  nodes r := (h'.nodes r).trans (h.nodes r)
  carried v hv name hn := (h'.carried v hv name hn).trans (h.carried v hv name hn)
  guards g hg := h'.guards g (h.guards g hg)
  sessionsSize := Nat.le_trans h.sessionsSize h'.sessionsSize
  sessions s hs name hn ht hc :=
    (h'.sessions s (Nat.lt_of_lt_of_le hs h.sessionsSize) name hn ht hc).trans
      (h.sessions s hs name hn ht hc)

theorem Frame.mono {V V' : Value → Prop} {w w' : World ε} (h : Frame V w w')
    (hV : ∀ v, V' v → V v) : Frame V' w w' :=
  { h with carried := fun v hv => h.carried v (hV v hv) }

/-- Nothing carries its attributes in lists, dictionaries, tuples, the log or the state of foreign
code. -/
theorem frame_contents (V : Value → Prop) {w : World ε} {ls : Store .list (Array Value)}
    {ts : Store .tuple (Array Value)} {ds : Store .dictionary Dictionary} {j : List LogRecord}
    {x : ε} (hts : w.tuples.Grows id ts) :
    Frame V w { w with
      lists := ls, tuples := ts, dictionaries := ds, journal := j, foreign := x } where
  tuples := hts
  methods := .refl _ _
  wrappers := .refl _ _
  nodes _ := rfl
  carried v _ name _ := by cases v <;> rfl
  guards _ hg := hg
  sessionsSize := Nat.le_refl _
  sessions _ _ _ _ _ _ := rfl

theorem Mild.refl (w : World ε) : Mild w w := ⟨.refl _ w, rfl, fun _ => rfl, fun _ => rfl, rfl⟩

theorem Mild.trans {w w' w'' : World ε} (h : Mild w w') (h' : Mild w' w'') : Mild w w'' :=
  ⟨h.toFrame.trans h'.toFrame, h'.lists.trans h.lists,
    fun o => (h'.observers o).trans (h.observers o),
    fun p => (h'.policies p).trans (h.policies p), h'.foreign.trans h.foreign⟩

theorem Still.refl (w : World ε) : Still w w := ⟨.refl w, fun _ _ _ => rfl⟩

theorem Still.trans {w w' w'' : World ε} (h : Still w w') (h' : Still w' w'') : Still w w'' :=
  ⟨h.toMild.trans h'.toMild, fun k name hn => (h'.tokens k name hn).trans (h.tokens k name hn)⟩

/-- Where all attributes of a value but marks are as before, no method of it is hidden that was not
hidden. -/
theorem unhidden_of_carried {w w' : World ε} {v : Value}
    (h : ∀ name ∉ Node.marks, (w'.carried v).get? name = (w.carried v).get? name)
    (hu : w.Unhidden v) : w'.Unhidden v := by
  intro m hm
  rw [h m.name (Message.name_ne_mark hm)]
  exact hu m hm

/-- The attributes of a value that carries some, after a change of those of another or the same
value. -/
theorem carried_modifyOwn {w : World ε} {v : Value} (h : (w.own? v).isSome)
    (f : Attributes → Attributes) (v' : Value) :
    (w.modifyOwn v f).carried v' = if v' = v then f (w.carried v) else w.carried v' := by
  obtain ⟨a, ha⟩ := Option.isSome_iff_exists.1 h
  by_cases hv : v' = v
  · subst hv
    simp [carried, own?_modifyOwn_self ha, ha]
  · simp [carried, own?_modifyOwn_of_ne w hv, hv]

/-! ## Changes -/

/-- A change of marks leaves everything else alone. -/
theorem still_modifyOwn {w : World ε} {v : Value} (h : (w.own? v).isSome)
    {f : Attributes → Attributes}
    (hf : ∀ a, ∀ name ∉ Node.marks, (f a).get? name = a.get? name) : Still w (w.modifyOwn v f) := by
  have hc : ∀ v', ∀ name ∉ Node.marks,
      ((w.modifyOwn v f).carried v').get? name = (w.carried v').get? name := by
    intro v' name hn
    rw [carried_modifyOwn h]
    split
    · rename_i hv
      rw [hf _ name hn, hv]
    · rfl
  refine {
    tuples := ?tuples, methods := ?methods, wrappers := ?wrappers, nodes := ?nodes
    carried := fun v' _ => hc v'
    guards := fun g => unhidden_of_carried (hc _)
    sessionsSize := ?sessionsSize
    sessions := fun s _ name hn _ _ => hc _ name hn
    lists := ?lists, observers := ?observers, policies := ?policies, foreign := ?foreign
    tokens := fun k => hc (.token k) }
  -- the value lies in one store, and there no more changes than its attributes
  case tuples | methods => cases v <;> exact .refl _ _
  case wrappers =>
    cases v
    case wrapper r => exact Store.grows_modify _ _ fun _ => rfl
    all_goals exact .refl _ _
  case nodes =>
    intro r
    cases v
    case node r' => exact Store.view_get_modify Node.cls _ _ _ fun _ => rfl
    all_goals rfl
  case sessionsSize =>
    cases v
    case session s => exact Store.size_modify _ _ _
    all_goals exact Nat.le_refl _
  case lists | foreign => cases v <;> rfl
  case observers =>
    intro o
    cases v
    case observer r => exact Store.view_get_modify Observer.cls _ _ _ fun _ => rfl
    all_goals rfl
  case policies =>
    intro p
    cases v
    case policy r => exact Store.view_get_modify Policy.body _ _ _ fun _ => rfl
    all_goals rfl

theorem still_setMark {w : World ε} {v : Value} (h : (w.own? v).isSome) {name : String}
    (hn : name ∈ Node.marks) (x : Value) : Still w (w.setOwn v name x) := by
  refine still_modifyOwn h fun a name' hn' => ?_
  have : name' ≠ name := by
    rintro rfl
    exact hn' hn
  simp [Attributes.get?_set, this]

/-- Adding tuples, methods and wrappers and writing to the log leaves everything else alone. -/
theorem still_of_grows {w : World ε} {ts : Store .tuple (Array Value)} {ms : Store .method Method}
    {xs : Store .wrapper Wrapper} {j : List LogRecord} (ht : w.tuples.Grows id ts)
    (hm : w.methods.Grows id ms) (hx : w.wrappers.Grows Wrapper.content xs) :
    Still w { w with tuples := ts, methods := ms, wrappers := xs, journal := j } := by
  have hc : ∀ v : Value, (∀ x, v ≠ .wrapper x) →
      carried { w with tuples := ts, methods := ms, wrappers := xs, journal := j } v =
        w.carried v := by
    intro v hv
    cases v
    case wrapper x => exact absurd rfl (hv x)
    all_goals rfl
  have hg : ∀ v : Value, (∀ x, v ≠ .wrapper x) → ∀ name, name ∉ Node.marks →
      (carried { w with tuples := ts, methods := ms, wrappers := xs, journal := j } v).get? name =
        (w.carried v).get? name := fun v hv name _ => by rw [hc v hv]
  exact {
    tuples := ht, methods := hm, wrappers := hx, nodes := fun _ => rfl
    carried := fun v hv => hg v (by rintro x rfl; cases hv)
    guards := fun g => unhidden_of_carried (hg _ (by simp))
    sessionsSize := Nat.le_refl _
    sessions := fun s _ name hn _ _ => hg _ (by simp) name hn
    lists := rfl, observers := fun _ => rfl, policies := fun _ => rfl, foreign := rfl
    tokens := fun k => hg _ (by simp) }

theorem still_storeTuple (w : World ε) (items : List Value) : Still w (w.storeTuple items).2 :=
  still_of_grows (Store.grows_add ..) (.refl ..) (.refl ..)

theorem still_newMethod (w : World ε) (v : Value) (m : Message) : Still w (w.newMethod v m).2 :=
  still_of_grows (.refl ..) (Store.grows_add ..) (.refl ..)

theorem still_newWrapper (w : World ε) (v inner : Value) : Still w (w.newWrapper v inner).2 :=
  still_of_grows (.refl ..) (.refl ..) (Store.grows_add ..)

theorem still_journal (w : World ε) (j : List LogRecord) : Still w { w with journal := j } :=
  still_of_grows (.refl ..) (.refl ..) (.refl ..)

theorem log_eq (w : World ε) (severity : Severity) (channel : Channel) (message : String) :
    ∃ j, w.log severity channel (.ok message) = (.ok (), { w with journal := j }) := by
  unfold log
  split
  · exact ⟨_, rfl⟩
  · exact ⟨w.journal, rfl⟩

theorem still_say (w : World ε) (severity : Severity) (channel : Channel) (message : String) :
    Still w (w.say severity channel message) := by
  obtain ⟨j, hj⟩ := w.log_eq severity channel message
  rw [say, hj]
  exact still_journal w j

theorem nodes_say (w : World ε) (severity : Severity) (channel : Channel) (message : String) :
    (w.say severity channel message).nodes = w.nodes := by
  obtain ⟨j, hj⟩ := w.log_eq severity channel message
  rw [say, hj]

theorem sessions_say (w : World ε) (severity : Severity) (channel : Channel) (message : String) :
    (w.say severity channel message).sessions.cells.size = w.sessions.cells.size := by
  obtain ⟨j, hj⟩ := w.log_eq severity channel message
  rw [say, hj]

theorem carried_modifySession (w : World ε) (r r' : Ref .session) (f : Session → Session) :
    carried { w with sessions := w.sessions.modify r f } (.session r') =
      if r' = r then (f (w.sessions.get r)).attributes else w.carried (.session r') := by
  simp only [carried, own?, Store.get_modify]
  split <;> rfl

/-- What sessions carry apart from what they say about their walks is as before. -/
theorem get?_carried_modifySession (w : World ε) (r r' : Ref .session) {f : Session → Session}
    (hf : Session.Amends f) {name : String} (ht : name ≠ Session.tableField)
    (hc : name ≠ Session.closedField) :
    (carried { w with sessions := w.sessions.modify r f } (.session r')).get? name =
      (w.carried (.session r')).get? name := by
  rw [carried_modifySession]
  split
  · rename_i hr
    rw [hf _ name ht hc, hr]
    rfl
  · rfl

/-- A session may change what it says about its walk. -/
theorem still_modifySession (w : World ε) (s : Ref .session) {f : Session → Session}
    (hf : Session.Amends f) :
    Still w { w with sessions := w.sessions.modify s f } := by
  have hc : ∀ v : Value, (∀ s, v ≠ .session s) →
      carried { w with sessions := w.sessions.modify s f } v = w.carried v := by
    intro v hv
    cases v
    case session s => exact absurd rfl (hv s)
    all_goals rfl
  have hg : ∀ v : Value, (∀ s, v ≠ .session s) → ∀ name, name ∉ Node.marks →
      (carried { w with sessions := w.sessions.modify s f } v).get? name =
        (w.carried v).get? name := fun v hv name _ => by rw [hc v hv]
  refine {
    tuples := .refl _ _, methods := .refl _ _, wrappers := .refl _ _, nodes := fun _ => rfl
    carried := fun v hv => hg v (by rintro x rfl; cases hv)
    guards := fun g => unhidden_of_carried (hg _ (by simp))
    sessionsSize := Store.size_modify _ _ _
    sessions := fun s' _ name _ ht hcl => get?_carried_modifySession w s s' hf ht hcl
    lists := rfl, observers := fun _ => rfl, policies := fun _ => rfl, foreign := rfl
    tokens := fun k => hg _ (by simp) }

end World

end GuardedWalk
