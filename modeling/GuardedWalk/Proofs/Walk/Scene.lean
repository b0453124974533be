import GuardedWalk.Proofs.Agenda
import GuardedWalk.Proofs.Ownership.Token
import GuardedWalk.Recording

/-!
# The scene of a walk

A walk of one walker goes through a document while much else may happen. What the walk relies on is
a scene: the walker is put together as it was made, its token is idle or held by its thread, the
document stands as it is written, and what the walk has taken note of on its way is still so. No
matter how the rest of the world changes, a change that leaves these alone leaves the scene.

## Main definitions

* `GuardedWalk.Cast` — who takes part in a walk.
* `GuardedWalk.Cast.Assembled` — the walker is put together as it was made.
* `GuardedWalk.Hold` — whether the token is idle, or how many blocks of the walk are open.
* `GuardedWalk.Value.IsTimeout`, `outlastsTime` — how long a competing thread may wait can be told.
* `GuardedWalk.Pin` — what a walk has taken note of.
* `GuardedWalk.Scene` — all that a walk relies on.

## Main results

* `GuardedWalk.Scene.still` — most steps of a walk leave the scene as it is.
* `GuardedWalk.Scene.install` — a guard is put on a value.
* `GuardedWalk.Scene.enter_idle`, `enter_owned` — an entry, when the token is idle or held.
* `GuardedWalk.Scene.release_inner`, `release_outer` — the end of a block.
-/

set_option autoImplicit false

namespace GuardedWalk

open Ownership (Shows RunsOn Aside)

variable {ε : Type}

/-- Who takes part in a walk. -/
structure Cast where
  walker : Ref .walker
  /-- The token of the walker. -/
  token : Ref .token
  /-- The guard of the walker. -/
  guard : Ref .guard
  /-- What notifies the observers of the walker. -/
  adapter : Ref .adapter
  /-- The observers that are notified, as a tuple. -/
  notified : Ref .tuple
  observers : List (Ref .observer)
  /-- How long a competing thread may wait. -/
  timeout : Value
  /-- The thread of the walk. -/
  thread : Thread

/-- Events show the names of their methods. -/
theorem World.member_event {w : World ε} {e : Event}
    (h : (w.carried (.event e)).get? "_value_" = some (.text e.methodName)) :
    w.member (.event e) Recording.nameField = .ok (.value (.text e.methodName)) := by
  simp only [World.carried] at h
  have hbase : w.memberWithin 1 (.event e) "_value_" = .ok (.value (.text e.methodName)) := by
    simp [World.memberWithin, World.getter?, World.eventGetter?, World.memberHere, h]
  simpa [World.member, World.extent, World.memberWithin, World.getter?, World.eventGetter?,
    Recording.nameField, World.workOut, World.reached] using hbase

namespace Cast

/-- The walker is put together as it was made, and nothing stands in the way of its methods. -/
structure Assembled (X : Cast) (w : World ε) : Prop where
  ownership :
    (w.carried (.walker X.walker)).get? Walker.ownershipField = some (.token X.token)
  ownGuard : (w.carried (.walker X.walker)).get? Walker.guardField = some (.guard X.guard)
  broadcast : (w.carried (.walker X.walker)).get? Walker.broadcastField = some (.adapter X.adapter)
  guardWalker : (w.carried (.guard X.guard)).get? Guard.walkerField = some (.walker X.walker)
  guardToken : (w.carried (.guard X.guard)).get? Guard.ownershipField = some (.token X.token)
  adapterGuard : (w.carried (.adapter X.adapter)).get? Broadcast.guardField = some (.guard X.guard)
  adapterNotified :
    (w.carried (.adapter X.adapter)).get? Broadcast.notifiedField = some (.tuple X.notified)
  inTuples : X.notified.index < w.tuples.cells.size
  notified : w.row X.notified = X.observers.map .observer
  walkerOpen : w.Unhidden (.walker X.walker)
  guardOpen : w.Unhidden (.guard X.guard)
  adapterOpen : w.Unhidden (.adapter X.adapter)
  timeout : ∃ n, X.timeout.number? = some n
  events : ∀ e : Event, (w.carried (.event e)).get? "_value_" = some (.text e.methodName)

/-- A walker shows its guard. -/
theorem Assembled.shownGuard?_eq {X : Cast} {w : World ε} (h : X.Assembled w) :
    w.shownGuard? (.walker X.walker) = some X.guard := by
  have hown := h.ownGuard
  have hwalker := h.guardWalker
  simp only [World.carried] at hown
  have hm : w.member (.walker X.walker) "guard" = .ok (.value (.guard X.guard)) := by
    simp [World.member, World.extent, World.memberWithin, World.getter?, World.walkerGetter?,
      World.workOut, World.reached, World.memberHere, Walker.guardField] at hown ⊢
    simp [hown]
  have hgw : (w.guards.get X.guard).walker = .walker X.walker := by
    simpa [World.carried, World.own?, Guard.walker, Attributes.value] using
      congrArg (fun o => o.getD Value.none) hwalker
  simp [World.shownGuard?, hm, hgw]

/-- The values whose attributes a walk relies on. -/
def Relies (X : Cast) (v : Value) : Prop :=
  v = .walker X.walker ∨ v = .guard X.guard ∨ v = .adapter X.adapter ∨ ∃ e, v = .event e

end Cast

/-- A session that can be ended: it says when and for whom it was opened. -/
structure Ready (w : World ε) (s : Ref .session) (threadName : String) : Prop where
  stored : s.index < w.sessions.cells.size
  name : (w.carried (.session s)).get? Session.threadNameField = some (.text threadName)
  started : (w.carried (.session s)).get? Session.startedField = some (.float .zero)
  unhidden : w.Unhidden (.session s)

/-- How a token is held. -/
inductive Hold where
  /-- No walk is in flight. -/
  | idle
  /-- The session of the walk, and how many blocks are open within the outermost one. -/
  | owned (s : Ref .session) (n : Nat)

/-- A token is held by the thread of a walk or by nobody. -/
structure Held (w : World ε) (X : Cast) (h : Hold) : Prop where
  unhidden : w.Unhidden (.token X.token)
  shows : ∃ x, Shows w X.token x ∧ x.timeout = X.timeout ∧
    match h with
    | .idle => x.owner = none
    | .owned s n =>
      (∃ u : Thread, x.owner = some (s, u) ∧ u.id = X.thread.id) ∧ x.depth = n + 1 ∧
        ∃ threadName, Ready w s threadName

/-- A token has been given back by all blocks that held it. -/
structure Released (w : World ε) (X : Cast) : Prop where
  session : (w.carried (.token X.token)).get? Token.sessionField = some .none
  depth : (w.carried (.token X.token)).get? Token.depthField = some (.int 0)

/-- What a walk has taken note of. -/
inductive Pin where
  /-- A tuple and its elements. -/
  | row (r : Ref .tuple) (items : List Value)
  /-- What the wrapper of a node hides that is traversed by its own traversal, if it has one. -/
  | hides (r : Ref .node) (own : Option (Ref .node)) (inner : Value)
  /-- A guard in whose way nothing stands. -/
  | guard (g : Ref .guard)
  /-- A session that can be ended, and the name of its thread. -/
  | session (s : Ref .session) (threadName : String)

/-- What a walk has taken note of is still so. -/
def Pin.Holds (w : World ε) : Pin → Prop
  | row r items => r.index < w.tuples.cells.size ∧ w.row r = items
  | hides r own inner => w.Hides r own inner
  | guard g => w.Unhidden (.guard g)
  | session s threadName => Ready w s threadName

/-- All that a walk relies on. -/
structure Scene {κ : Type} (X : Cast) (strict : Bool) (D : Ref .list → Prop) (root : Agenda κ)
    (pins : List Pin) (h : Hold) (w : World ε) : Prop where
  assembled : X.Assembled w
  held : Held w X h
  pinned : ∀ p ∈ pins, p.Holds w
  fits : root.Fits strict D w

variable {κ : Type} {w w' : World ε} {V : Value → Prop} {X : Cast} {strict : Bool}
  {D : Ref .list → Prop} {root : Agenda κ} {pins : List Pin} {h : Hold}

/-! ## Timeouts -/

namespace Value

/-- How long a competing thread may wait can be told. -/
def IsTimeout (v : Value) : Prop :=
  ∀ now typeName, ∃ limit, Limit.ofOwnership now typeName v = .ok limit

/-- Whether a value is a whole number beyond the range of floating-point numbers; such a number
cannot be added to a time. -/
def outlastsTime (v : Value) : Bool :=
  match v.number? with
  | some (.whole i) =>
    match Binary64.ofInt i with
    | .infinite _ => true
    | _ => false
  | _ => false

theorem ofOwnership_of_outlastsTime {v : Value} (hv : v.outlastsTime = true) (now : Nat)
    (typeName : String) : Limit.ofOwnership now typeName v = .error .numberTooLarge := by
  unfold outlastsTime at hv
  split at hv
  · rename_i i hi
    split at hv
    · rename_i negative hinf
      simp only [Limit.ofOwnership, hi, hinf]
    · cases hv
  · cases hv

/-- Any other number is added to the time. -/
theorem ofOwnership_of_number {v : Value} {n : Number} (hn : v.number? = some n)
    (ht : v.outlastsTime = false) (now : Nat) (typeName : String) :
    Limit.ofOwnership now typeName v = .ok (.ofNumber now n) := by
  cases n with
  | float x => simp only [Limit.ofOwnership, hn]
  | whole i =>
    simp only [outlastsTime, hn] at ht
    cases hi : Binary64.ofInt i with
    | infinite negative => simp [hi] at ht
    | nan | finite => simp only [Limit.ofOwnership, hn, hi]

/-- So it is a timeout. -/
theorem isTimeout_of_number {v : Value} (hv : ∃ n, v.number? = some n)
    (ht : v.outlastsTime = false) : v.IsTimeout := by
  obtain ⟨n, hn⟩ := hv
  exact fun now typeName => ⟨_, ofOwnership_of_number hn ht now typeName⟩

end Value

/-! ## What a frame leaves -/

theorem row_frame (hf : World.Frame V w w') {r : Ref .tuple}
    (hr : r.index < w.tuples.cells.size) : w'.row r = w.row r := by
  have := hf.tuples.2 r hr
  simp only [id] at this
  simp [World.row, this]

theorem Cast.Assembled.frame (ha : X.Assembled w) (hf : World.Frame V w w')
    (hV : ∀ v, X.Relies v → V v) : X.Assembled w' := by
  have hw : ∀ name ∉ Node.marks, (w'.carried (.walker X.walker)).get? name = _ :=
    hf.carried _ (hV _ (.inl rfl))
  have hg : ∀ name ∉ Node.marks, (w'.carried (.guard X.guard)).get? name = _ :=
    hf.carried _ (hV _ (.inr (.inl rfl)))
  have hb : ∀ name ∉ Node.marks, (w'.carried (.adapter X.adapter)).get? name = _ :=
    hf.carried _ (hV _ (.inr (.inr (.inl rfl))))
  have he : ∀ e : Event, ∀ name ∉ Node.marks, (w'.carried (.event e)).get? name = _ :=
    fun e => hf.carried _ (hV _ (.inr (.inr (.inr ⟨e, rfl⟩))))
  exact {
    ownership := (hw _ (by decide)).trans ha.ownership
    ownGuard := (hw _ (by decide)).trans ha.ownGuard
    broadcast := (hw _ (by decide)).trans ha.broadcast
    guardWalker := (hg _ (by decide)).trans ha.guardWalker
    guardToken := (hg _ (by decide)).trans ha.guardToken
    adapterGuard := (hb _ (by decide)).trans ha.adapterGuard
    adapterNotified := (hb _ (by decide)).trans ha.adapterNotified
    inTuples := Nat.lt_of_lt_of_le ha.inTuples hf.tuples.1
    notified := (row_frame hf ha.inTuples).trans ha.notified
    walkerOpen := World.unhidden_of_carried hw ha.walkerOpen
    guardOpen := World.unhidden_of_carried hg ha.guardOpen
    adapterOpen := World.unhidden_of_carried hb ha.adapterOpen
    timeout := ha.timeout
    events := fun e => (he e _ (by decide)).trans (ha.events e) }

theorem Message.name_ne_tableField (m : Message) :
    m.name ≠ Session.tableField ∧ m.name ≠ Session.closedField := by
  cases m
  case entry e => cases e <;> decide
  all_goals decide

theorem Ready.frame {s : Ref .session} {threadName : String} (hr : Ready w s threadName)
    (hf : World.Frame V w w') : Ready w' s threadName where
  stored := Nat.lt_of_lt_of_le hr.stored hf.sessionsSize
  name := (hf.sessions s hr.stored _ (by decide) (by decide) (by decide)).trans hr.name
  started := (hf.sessions s hr.stored _ (by decide) (by decide) (by decide)).trans hr.started
  unhidden m hm := by
    obtain ⟨ht, hc⟩ := Message.name_ne_tableField m
    rw [hf.sessions s hr.stored m.name (Message.name_ne_mark hm) ht hc]
    exact hr.unhidden m hm

theorem RunsOn.frame {s : Ref .session} {u : Thread} (hr : RunsOn w s u)
    (hf : World.Frame V w w') : RunsOn w' s u where
  number := (hf.sessions s hr.stored _ (by decide) (by decide) (by decide)).trans hr.number
  name := (hf.sessions s hr.stored _ (by decide) (by decide) (by decide)).trans hr.name
  stored := Nat.lt_of_lt_of_le hr.stored hf.sessionsSize

/-- A token shows the same as long as its attributes stay, apart from who sleeps. -/
theorem Shows.frame {k : Ref .token} {x : Ownership.View} (hs : Shows w k x)
    (hf : World.Frame V w w')
    (ht : ∀ name ∉ Node.marks, (w'.carried (.token k)).get? name =
      (w.carried (.token k)).get? name) :
    Shows w' k { x with asleep := (w'.conditions.get x.condition).asleep } := by
  have hv : ∀ name ∉ Node.marks, w'.ownValue (.token k) name = w.ownValue (.token k) name := by
    intro name hn
    rw [World.ownValue_eq, World.ownValue_eq, Attributes.value, Attributes.value, ht name hn]
  obtain ⟨copy, hc⟩ := hs.condition
  exact {
    session := (hv _ (by decide)).trans hs.session
    depth := (hv _ (by decide)).trans hs.depth
    generation := (hv _ (by decide)).trans hs.generation
    waiting := (hv _ (by decide)).trans hs.waiting
    condition := ⟨copy, (hv _ (by decide)).trans hc⟩
    asleep := rfl
    timeout := (hv _ (by decide)).trans hs.timeout
    runs := fun s u hsu => RunsOn.frame (hs.runs s u hsu) hf }

theorem Held.frame (hh : Held w X h) (hf : World.Frame V w w')
    (ht : ∀ name ∉ Node.marks, (w'.carried (.token X.token)).get? name =
      (w.carried (.token X.token)).get? name) : Held w' X h where
  unhidden := World.unhidden_of_carried ht hh.unhidden
  shows := by
    obtain ⟨x, hs, htime, hx⟩ := hh.shows
    refine ⟨_, Shows.frame hs hf ht, htime, ?_⟩
    cases h with
    | idle => exact hx
    | owned s n =>
      obtain ⟨hu, hd, threadName, hr⟩ := hx
      exact ⟨hu, hd, threadName, hr.frame hf⟩

theorem Pin.Holds.frame {p : Pin} (hp : p.Holds w) (hf : World.Frame V w w') : p.Holds w' := by
  cases p with
  | row r items =>
    exact ⟨Nat.lt_of_lt_of_le hp.1 hf.tuples.1, (row_frame hf hp.1).trans hp.2⟩
  | hides r own inner => exact World.Hides.frame hp hf
  | guard g => exact hf.guards g hp
  | session s threadName => exact Ready.frame hp hf

/-! ## What steps of a walk leave -/

namespace Scene

theorem relies_isSteady {v : Value} (hv : X.Relies v) : v.isSteady = true := by
  rcases hv with rfl | rfl | rfl | ⟨e, rfl⟩ <;> rfl

/-- The scene after a step that leaves everything but marks alone, as long as marks belong
together. -/
theorem still (hs : Scene X strict D root pins h w) (hw : World.Still w w')
    (hc : ∀ r own, w.Marked r own → w'.Marked r own) : Scene X strict D root pins h w' where
  assembled := hs.assembled.frame hw.toFrame fun _ => relies_isSteady
  held := hs.held.frame hw.toFrame (hw.tokens _)
  pinned p hp := (hs.pinned p hp).frame hw.toFrame
  fits := hs.fits.mild hw.toMild hc

theorem marked_of_nodes (hw : World.Mild w w') (hn : w'.nodes = w.nodes) :
    ∀ r own, w.Marked r own → w'.Marked r own :=
  fun r _ hr => hr.frame hw.toFrame (World.carried_of_nodes hn r)

/-- The scene changes with what is taken note of. -/
theorem pin (hs : Scene X strict D root pins h w) {p : Pin} (hp : p.Holds w) :
    Scene X strict D root (p :: pins) h w :=
  { hs with
    pinned := by
      intro q hq
      rcases List.mem_cons.1 hq with rfl | hq
      · exact hp
      · exact hs.pinned q hq }

theorem unpin {p : Pin} (hs : Scene X strict D root (p :: pins) h w) :
    Scene X strict D root pins h w :=
  { hs with pinned := fun q hq => hs.pinned q (List.mem_cons_of_mem p hq) }

theorem storeTuple (hs : Scene X strict D root pins h w) (items : List Value) :
    Scene X strict D root (.row (w.storeTuple items).1 items :: pins) h
      (w.storeTuple items).2 := by
  have hw := World.still_storeTuple w items
  refine (hs.still hw (marked_of_nodes hw.toMild rfl)).pin ⟨?_, ?_⟩
  · simp [World.storeTuple, Store.next, Store.add]
  · simp [World.storeTuple, World.row, Store.get_add]

theorem journal (hs : Scene X strict D root pins h w) (j : List LogRecord) :
    Scene X strict D root pins h { w with journal := j } :=
  hs.still (World.still_journal w j) (marked_of_nodes (World.still_journal w j).toMild rfl)

/-- The guard of the walk is put on a value. -/
theorem install (hs : Scene X strict D root pins h w) (obstruct : Obstruction ε) {v : Value}
    (hv : w.Guardable strict v) :
    ∃ b w', World.install obstruct w X.guard v = (.ok b, w') ∧
      Scene X strict D root pins h w' := by
  obtain ⟨b, w', hrun, hw, hc⟩ := World.install_run obstruct hv.1 hs.assembled.guardOpen
  exact ⟨b, w', hrun, hs.still hw fun r own hr => (hc r own hr).1⟩

/-- A session changes what it says about its walk. -/
theorem modifySession (hs : Scene X strict D root pins h w) (s : Ref .session)
    {f : Session → Session} (hf : Session.Amends f) :
    Scene X strict D root pins h { w with sessions := w.sessions.modify s f } :=
  have hw := World.still_modifySession w s hf
  hs.still hw (marked_of_nodes hw.toMild rfl)

/-- The outline table of a session is assigned to without fail. -/
theorem assignTable_run (obstruct : Obstruction ε) (w : World ε) (s : Ref .session)
    (table : Value) :
    (Act.assign obstruct (.session s) Session.tableField table).run w =
      (.ok (), w.setOwn (.session s) Session.tableField table) := by
  have hne : Session.tableField ≠ "elapsed" := by decide
  simp [Act.assign, Act.of, ExceptT.run, World.setField, World.computedNames, World.getter?,
    World.own?, hne]

/-! ## Steps on the token -/

theorem name_not_mem_status (m : Message) : m.name ∉ Ownership.status := by
  cases m
  case entry e => cases e <;> decide
  all_goals decide

theorem mild_aside {k : Ref .token} (ha : Aside k w w') : World.Mild w w' := by
  have hc : ∀ v : Value, (∀ k, v ≠ .token k) → (∀ s, v ≠ .session s) →
      w'.carried v = w.carried v := by
    intro v hk hs
    rw [ha.rest]
    cases v
    case token k => exact absurd rfl (hk k)
    case session s => exact absurd rfl (hs s)
    all_goals rfl
  have hg : ∀ v : Value, (∀ k, v ≠ .token k) → (∀ s, v ≠ .session s) → ∀ name ∉ Node.marks,
      (w'.carried v).get? name = (w.carried v).get? name :=
    fun v hk hs name _ => by rw [hc v hk hs]
  exact {
    tuples := by rw [ha.rest]; exact .refl _ _
    methods := by rw [ha.rest]; exact .refl _ _
    wrappers := by rw [ha.rest]; exact .refl _ _
    nodes := fun r => by rw [ha.rest]
    carried := fun v hv =>
      hg v (by rintro k rfl; cases hv) (by rintro s rfl; cases hv)
    guards := fun g => World.unhidden_of_carried (hg _ (by simp) (by simp))
    sessionsSize := ha.size
    sessions := fun s hs name _ _ _ => by simp [World.carried, World.own?, ha.sessions s hs]
    lists := by rw [ha.rest]
    observers := fun o => by rw [ha.rest]
    policies := fun p => by rw [ha.rest]
    foreign := by rw [ha.rest] }

theorem footstep_aside {k : Ref .token} (ha : Aside k w w') : w.Footstep k w' := by
  refine ⟨mild_aside ha, ?_, fun k' hk name _ => ?_⟩
  · rw [ha.rest]
  · rw [ha.others k' hk]

theorem onward_aside {k : Ref .token} (ha : Aside k w w') (hs : w'.sessions = w.sessions)
    (hsame : w'.ownValue (.token k) Token.sessionField = w.ownValue (.token k) Token.sessionField) :
    w.Onward k w' :=
  ⟨footstep_aside ha, .inl ⟨by rw [hs], hsame⟩⟩

/-- A step on the token changes only how the token is held. -/
theorem aside {h' : Hold} (hs : Scene X strict D root pins h w) (ha : Aside X.token w w')
    {x : Ownership.View} (hx : Shows w' X.token x) (htime : x.timeout = X.timeout)
    (hh : match h' with
      | .idle => x.owner = none
      | .owned s n =>
        (∃ u : Thread, x.owner = some (s, u) ∧ u.id = X.thread.id) ∧ x.depth = n + 1 ∧
          ∃ threadName, Ready w' s threadName) : Scene X strict D root pins h' w' where
  assembled := hs.assembled.frame (mild_aside ha).toFrame fun _ => relies_isSteady
  held := by
    refine ⟨fun m hm => ?_, x, hx, htime, hh⟩
    rw [ha.token m.name (name_not_mem_status m)]
    exact hs.held.unhidden m hm
  pinned p hp := (hs.pinned p hp).frame (mild_aside ha).toFrame
  fits := by
    refine hs.fits.mild (mild_aside ha) (marked_of_nodes (mild_aside ha) ?_)
    rw [ha.rest]

/-- No attribute of a session that is opened stands in the way of a method. -/
theorem session_unhidden (m : Message) {thread name : Value} :
    (Session.opened thread name .none).attributes.get? m.name = none := by
  have hne : m.name ≠ Session.threadField ∧ m.name ≠ Session.threadNameField ∧
      m.name ≠ Session.startedField ∧ m.name ≠ Session.tableField ∧
      m.name ≠ Session.closedField := by
    cases m
    case entry e => cases e <;> decide
    all_goals decide
  simp [Session.opened, Attributes.get?, List.lookup_eq_none_iff, hne]

/-- The walk begins: the token is taken. -/
theorem enter_idle (hs : Scene X strict D root pins .idle w) (ht : X.timeout.IsTimeout) :
    ∃ w' s, (Ownership.enter X.thread X.token).run w = (.ok .opened, w') ∧
      w.Onward X.token w' ∧ Scene X strict D root pins (.owned s 0) w' := by
  obtain ⟨x, hx, htime, ho⟩ := hs.held.shows
  simp only at ho
  obtain ⟨r, w', x', hrun, he, hx', ha⟩ := Ownership.enter_run X.thread hx
  rcases he.of_idle ho with ⟨f, hf, -⟩ | ⟨-, rfl, hsess, rfl⟩
  · obtain ⟨limit, hl⟩ := ht w.clock (w.typeName x.timeout)
    rw [htime] at hf hl
    simp [hl] at hf
  have hruns := hx'.runs _ _ rfl
  have honward : w.Onward X.token w' :=
    ⟨footstep_aside ha, .inr ⟨by simp [hsess, Store.add], by rw [hx.session, ho]; rfl,
      hx'.session⟩⟩
  refine ⟨w', w.sessions.next, hrun, honward, hs.aside ha hx' htime
    ⟨⟨X.thread, rfl, rfl⟩, rfl, _, hruns.stored, hruns.name, ?_, ?_⟩⟩
  · simp [World.carried, World.own?, hsess, Store.get_add, Session.opened, Attributes.get?,
      Session.threadField, Session.threadNameField, Session.startedField, List.lookup_cons]
  · intro m hm
    simp only [World.carried, World.own?, hsess, Store.get_add, if_true, Option.getD_some]
    exact session_unhidden m

/-- A further block begins. -/
theorem enter_owned {s : Ref .session} {n : Nat}
    (hs : Scene X strict D root pins (.owned s n) w) :
    ∃ w', (Ownership.enter X.thread X.token).run w = (.ok .nested, w') ∧
      w.Onward X.token w' ∧ Scene X strict D root pins (.owned s (n + 1)) w' := by
  obtain ⟨x, hx, htime, ⟨u, ho, hu⟩, hd, threadName, hready⟩ := hs.held.shows
  obtain ⟨r, w', x', hrun, he, hx', ha⟩ := Ownership.enter_run X.thread hx
  obtain ⟨rfl, hsess, rfl⟩ := he.of_owner ho hu
  refine ⟨w', hrun, onward_aside ha hsess (hx'.session.trans hx.session.symm),
    hs.aside ha hx' htime ⟨⟨u, ho, hu⟩, ?_, ?_⟩⟩
  · simp [hd]
  · exact ⟨threadName, hready.frame (mild_aside ha).toFrame⟩

/-- A walk that cannot begin changes nothing. -/
theorem enter_untimed (hs : Scene X strict D root pins .idle w) {f : Failure}
    (hf : Limit.ofOwnership w.clock (w.typeName X.timeout) X.timeout = .error f) :
    (Ownership.enter X.thread X.token).run w = (.error f, w) := by
  obtain ⟨x, hx, htime, ho⟩ := hs.held.shows
  simp only at ho
  obtain ⟨r, w', x', hrun, he, hx', ha⟩ := Ownership.enter_run X.thread hx
  rcases he.of_idle ho with ⟨f', hf', rfl, rfl⟩ | ⟨⟨limit, hl⟩, -⟩
  · rw [htime] at hf'
    obtain rfl : f = f' := Except.error.inj (hf.symm.trans hf')
    exact hrun
  · rw [htime] at hl
    simp [hf] at hl

/-- A block within another one ends. -/
theorem release_inner {s : Ref .session} {n : Nat}
    (hs : Scene X strict D root pins (.owned s (n + 1)) w) :
    ∃ w', (Ownership.release X.token).run w = (.ok none, w') ∧ w.Onward X.token w' ∧
      Scene X strict D root pins (.owned s n) w' := by
  obtain ⟨x, hx, htime, ⟨u, ho, hu⟩, hd, threadName, hready⟩ := hs.held.shows
  obtain ⟨w', hrun, hx', ha, hsess⟩ := Ownership.release_nested hx (by omega)
  refine ⟨w', hrun, onward_aside ha hsess (hx'.session.trans hx.session.symm),
    hs.aside ha hx' htime ⟨⟨u, ho, hu⟩, ?_, ?_⟩⟩
  · simp [hd]
  · exact ⟨threadName, hready.frame (mild_aside ha).toFrame⟩

/-- The outermost block ends: the token is idle again, and the session is to be closed. -/
theorem release_outer {s : Ref .session} (hs : Scene X strict D root pins (.owned s 0) w) :
    ∃ w' threadName, (Ownership.release X.token).run w = (.ok (some (.session s)), w') ∧
      w.Footstep X.token w' ∧ Released w' X ∧ w'.sessions = w.sessions ∧
      Scene X strict D root (.session s threadName :: pins) .idle w' := by
  obtain ⟨x, hx, htime, ⟨u, ho, hu⟩, hd, threadName, hready⟩ := hs.held.shows
  obtain ⟨w', hrun, hx', ha, hsess, hnone⟩ := Ownership.release_outermost hx (by omega)
  have hidle : Scene X strict D root pins .idle w' := hs.aside ha hx' htime rfl
  refine ⟨w', threadName, ?_, footstep_aside ha, ⟨hnone, ?_⟩, hsess, hidle.pin ?_⟩
  · rw [hrun, ho]
    rfl
  · exact World.get?_of_ownValue (hx'.depth.trans (by simp [hd])) (by simp)
  · exact hready.frame (mild_aside ha).toFrame

end Scene

end GuardedWalk
