import GuardedWalk.Ownership
import GuardedWalk.Proofs.World.Carried

/-!
# What the steps on a token do

The sections that run under the lock of a token read and write a few of its attributes. Here each of
them is described once by what it does to those: an entry nests, takes the token, waits or fails,
and a failed one leaves everything but the count of waits for a moment as it was.

## Main definitions

* `GuardedWalk.Ownership.View` — what is kept in a token.
* `GuardedWalk.Ownership.Shows` — a token of the world keeps what a view says.
* `GuardedWalk.Ownership.Aside` — what a step on a token leaves alone.
* `GuardedWalk.Ownership.Contends` — how a look at a token may end.

## Main results

* `GuardedWalk.Ownership.enter_run` — what an entry does.
* `GuardedWalk.Ownership.contend_run`, `recheck_run` — what a thread does that looks at a token.
* `GuardedWalk.Ownership.release_nested`, `release_outermost` — what the end of a block does.
* `GuardedWalk.Ownership.cancel_run` — what a cancellation does.
-/

set_option autoImplicit false

namespace GuardedWalk

namespace Ownership

variable {ε : Type}

/-! ## Views -/

/-- What is kept in a token. -/
structure View where
  /-- The session in flight and the thread that it was opened for. -/
  owner : Option (Ref .session × Thread)
  /-- How many blocks of the owner are open. -/
  depth : Int
  /-- How often waits have been cancelled. -/
  generation : Int
  /-- How many threads are inside a wait. -/
  waiting : Int
  /-- The condition on which threads wait. -/
  condition : Ref .condition
  /-- The threads that wait and have not been woken. -/
  asleep : List Thread
  /-- How long a competing thread may wait. -/
  timeout : Value

/-- The session in flight, as a value. -/
def sessionOf : Option (Ref .session × Thread) → Value
  | none => .none
  | some (s, _) => .session s

/-- A session was opened for a thread. -/
structure RunsOn (w : World ε) (s : Ref .session) (t : Thread) : Prop where
  number : (w.carried (.session s)).get? Session.threadField = some t.number
  name : (w.carried (.session s)).get? Session.threadNameField = some (.text t.name)
  stored : s.index < w.sessions.cells.size

/-- A token of the world keeps what a view says. -/
structure Shows (w : World ε) (k : Ref .token) (x : View) : Prop where
  session : w.ownValue (.token k) Token.sessionField = sessionOf x.owner
  depth : w.ownValue (.token k) Token.depthField = .int x.depth
  generation : w.ownValue (.token k) Token.generationField = .int x.generation
  waiting : w.ownValue (.token k) Token.waitingField = .int x.waiting
  condition :
    ∃ copy, w.ownValue (.token k) Token.conditionField = .condition x.condition copy
  asleep : (w.conditions.get x.condition).asleep = x.asleep
  timeout : w.ownValue (.token k) Token.timeoutField = x.timeout
  runs : ∀ s t, x.owner = some (s, t) → RunsOn w s t

/-- The attributes of a token that say how it is held and who waits for it. -/
def status : List String :=
  [Token.sessionField, Token.depthField, Token.generationField, Token.waitingField]

/-- What a step on a token leaves alone: all objects but tokens, conditions and sessions, the
sessions that there are already, other tokens, and what the token keeps besides its status. The
token loses no attribute. -/
structure Aside (k : Ref .token) (w w' : World ε) : Prop where
  rest :
    w' = { w with
      tokens := w'.tokens, conditions := w'.conditions, sessions := w'.sessions }
  sessions : ∀ s : Ref .session, s.index < w.sessions.cells.size →
    w'.sessions.get s = w.sessions.get s
  size : w.sessions.cells.size ≤ w'.sessions.cells.size
  token : ∀ name ∉ status, (w'.carried (.token k)).get? name = (w.carried (.token k)).get? name
  keeps : ∀ name, ((w.carried (.token k)).get? name).isSome →
    ((w'.carried (.token k)).get? name).isSome
  others : ∀ k' : Ref .token, k' ≠ k → w'.carried (.token k') = w.carried (.token k')

theorem Aside.refl (k : Ref .token) (w : World ε) : Aside k w w :=
  ⟨rfl, fun _ _ => rfl, Nat.le_refl _, fun _ _ => rfl, fun _ h => h, fun _ _ => rfl⟩

theorem Aside.trans {k : Ref .token} {w w' w'' : World ε} (h : Aside k w w')
    (h' : Aside k w' w'') : Aside k w w'' where
  rest := by
    rw [h'.rest, h.rest]
  sessions s hs := (h'.sessions s (Nat.lt_of_lt_of_le hs h.size)).trans (h.sessions s hs)
  size := Nat.le_trans h.size h'.size
  token name hn := (h'.token name hn).trans (h.token name hn)
  keeps name hn := h'.keeps name (h.keeps name hn)
  others k' hk := (h'.others k' hk).trans (h.others k' hk)

theorem aside_setOwn (w : World ε) (k : Ref .token) (name : String) (hn : name ∈ status)
    (v : Value) : Aside k w (w.setOwn (.token k) name v) where
  rest := rfl
  sessions _ _ := rfl
  size := Nat.le_refl _
  token name' hn' := by
    have hne : name' ≠ name := by
      rintro rfl
      exact hn' hn
    rw [World.carried_setOwn (v := .token k) rfl, if_pos rfl, Attributes.get?_set, if_neg hne]
  keeps name' hn' := by
    rw [World.carried_setOwn (v := .token k) rfl, if_pos rfl, Attributes.get?_set]
    split
    · rfl
    · exact hn'
  others k' hk := by
    rw [World.carried_setOwn (v := .token k) rfl, if_neg (by simpa using hk)]

theorem aside_conditions (k : Ref .token) (w : World ε) (cs : Store .condition Condition) :
    Aside k w { w with conditions := cs } :=
  ⟨rfl, fun _ _ => rfl, Nat.le_refl _, fun _ _ => rfl, fun _ h => h, fun _ _ => rfl⟩

theorem aside_addSession (k : Ref .token) (w : World ε) (a : Session) :
    Aside k w { w with sessions := w.sessions.add a } where
  rest := rfl
  sessions s hs := by
    have : s ≠ w.sessions.next := by
      rintro rfl
      exact Nat.lt_irrefl _ hs
    simp [Store.get_add, this]
  size := by simp [Store.add]
  token _ _ := rfl
  keeps _ h := h
  others _ _ := rfl

/-- What runs on a thread still does after a step on a token. -/
theorem RunsOn.aside {k : Ref .token} {w w' : World ε} {s : Ref .session} {t : Thread}
    (h : RunsOn w s t) (ha : Aside k w w') : RunsOn w' s t := by
  have hc : w'.carried (.session s) = w.carried (.session s) := by
    simp [World.carried, World.own?, ha.sessions s h.stored]
  exact ⟨hc ▸ h.number, hc ▸ h.name, Nat.lt_of_lt_of_le h.stored ha.size⟩

/-- The session of a token was opened for one thread only. -/
theorem RunsOn.number_injective {w : World ε} {s : Ref .session} {t u : Thread}
    (h : RunsOn w s t) (h' : RunsOn w s u) : t.number = u.number :=
  Option.some.inj (h.number.symm.trans h'.number)

/-! ## Assignments to a token -/

theorem own?_token_isSome (w : World ε) (k : Ref .token) : (w.own? (.token k)).isSome := rfl

/-- What is read from a token after an assignment to it. -/
theorem ownValue_setOwn_token (w : World ε) (k : Ref .token) (name : String) (v : Value)
    (name' : String) :
    (w.setOwn (.token k) name v).ownValue (.token k) name' =
      if name' = name then v else w.ownValue (.token k) name' := by
  simp [World.ownValue_setOwn (own?_token_isSome w k)]

section Assignments

variable {w : World ε} {k : Ref .token} {x : View}

theorem Shows.setDepth (h : Shows w k x) (d : Int) :
    Shows (w.setOwn (.token k) Token.depthField (.int d)) k { x with depth := d } where
  session := by simpa [ownValue_setOwn_token, Token.sessionField, Token.depthField] using h.session
  depth := by simp [ownValue_setOwn_token]
  generation := by
    simpa [ownValue_setOwn_token, Token.generationField, Token.depthField] using h.generation
  waiting := by simpa [ownValue_setOwn_token, Token.waitingField, Token.depthField] using h.waiting
  condition := by
    simpa [ownValue_setOwn_token, Token.conditionField, Token.depthField] using h.condition
  asleep := h.asleep
  timeout := by simpa [ownValue_setOwn_token, Token.timeoutField, Token.depthField] using h.timeout
  runs s t hs := (h.runs s t hs).aside (aside_setOwn _ _ _ (by decide) _)

theorem Shows.setGeneration (h : Shows w k x) (g : Int) :
    Shows (w.setOwn (.token k) Token.generationField (.int g)) k { x with generation := g } where
  session := by
    simpa [ownValue_setOwn_token, Token.sessionField, Token.generationField] using h.session
  depth := by simpa [ownValue_setOwn_token, Token.depthField, Token.generationField] using h.depth
  generation := by simp [ownValue_setOwn_token]
  waiting := by
    simpa [ownValue_setOwn_token, Token.waitingField, Token.generationField] using h.waiting
  condition := by
    simpa [ownValue_setOwn_token, Token.conditionField, Token.generationField] using h.condition
  asleep := h.asleep
  timeout := by
    simpa [ownValue_setOwn_token, Token.timeoutField, Token.generationField] using h.timeout
  runs s t hs := (h.runs s t hs).aside (aside_setOwn _ _ _ (by decide) _)

theorem Shows.setWaiting (h : Shows w k x) (n : Int) :
    Shows (w.setOwn (.token k) Token.waitingField (.int n)) k { x with waiting := n } where
  session := by
    simpa [ownValue_setOwn_token, Token.sessionField, Token.waitingField] using h.session
  depth := by simpa [ownValue_setOwn_token, Token.depthField, Token.waitingField] using h.depth
  generation := by
    simpa [ownValue_setOwn_token, Token.generationField, Token.waitingField] using h.generation
  waiting := by simp [ownValue_setOwn_token]
  condition := by
    simpa [ownValue_setOwn_token, Token.conditionField, Token.waitingField] using h.condition
  asleep := h.asleep
  timeout := by
    simpa [ownValue_setOwn_token, Token.timeoutField, Token.waitingField] using h.timeout
  runs s t hs := (h.runs s t hs).aside (aside_setOwn _ _ _ (by decide) _)

theorem Shows.setOwner (h : Shows w k x) {o : Option (Ref .session × Thread)}
    (hr : ∀ s t, o = some (s, t) → RunsOn w s t) :
    Shows (w.setOwn (.token k) Token.sessionField (sessionOf o)) k
      { x with owner := o } where
  session := by simp [ownValue_setOwn_token]
  depth := by simpa [ownValue_setOwn_token, Token.depthField, Token.sessionField] using h.depth
  generation := by
    simpa [ownValue_setOwn_token, Token.generationField, Token.sessionField] using h.generation
  waiting := by
    simpa [ownValue_setOwn_token, Token.waitingField, Token.sessionField] using h.waiting
  condition := by
    simpa [ownValue_setOwn_token, Token.conditionField, Token.sessionField] using h.condition
  asleep := h.asleep
  timeout := by
    simpa [ownValue_setOwn_token, Token.timeoutField, Token.sessionField] using h.timeout
  runs s t hs := (hr s t hs).aside (aside_setOwn _ _ _ (by decide) _)

/-- What sleeps on the condition of a token changes nothing else about it. -/
theorem Shows.setAsleep (h : Shows w k x) {cs : Store .condition Condition} {l : List Thread}
    (hc : (cs.get x.condition).asleep = l) :
    Shows { w with conditions := cs } k { x with asleep := l } where
  session := h.session
  depth := h.depth
  generation := h.generation
  waiting := h.waiting
  condition := h.condition
  asleep := hc
  timeout := h.timeout
  runs s t hs := (h.runs s t hs).aside (aside_conditions k ..)

/-- A session that is added changes nothing about a token. -/
theorem Shows.addSession (h : Shows w k x) (a : Session) :
    Shows { w with sessions := w.sessions.add a } k x where
  session := h.session
  depth := h.depth
  generation := h.generation
  waiting := h.waiting
  condition := h.condition
  asleep := h.asleep
  timeout := h.timeout
  runs s t hs := (h.runs s t hs).aside (aside_addSession k w a)

end Assignments

/-! ## Counting -/

theorem countUp_run {w : World ε} {k : Ref .token} {name : String} {i : Int}
    (h : w.ownValue (.token k) name = .int i) :
    (countUp k name).run w = (.ok (), w.setOwn (.token k) name (.int (i + 1))) := by
  simp [countUp, field, Act.run_bind, h, World.increased, Value.number?, Value.Number.shifted,
    World.newNumber]

theorem countDown_run {w : World ε} {k : Ref .token} {name : String} {i : Int}
    (h : w.ownValue (.token k) name = .int i) :
    (countDown k name).run w = (.ok (), w.setOwn (.token k) name (.int (i - 1))) := by
  simp [countDown, field, Act.run_bind, h, World.decreased, Value.number?, Value.Number.shifted,
    World.newNumber, Int.sub_eq_add_neg]

theorem lock_run {w : World ε} {k : Ref .token} {x : View} (h : Shows w k x) :
    (lock k).run w = (.ok (), w) := by
  obtain ⟨copy, hc⟩ := h.condition
  simp [lock, field, Act.run_bind, hc, Act.checkLock, World.lockProblem?]

/-! ## Looking at a token -/

/-- Whether an attempt to get a token has got it. -/
def gets : Except Failure Entry → Bool
  | .ok .nested | .ok .opened => true
  | .ok (.waits _) | .error _ => false

/-- How a look at a token may end for a thread that came when waits had been cancelled `generation`
times: it takes an idle token and opens a session; otherwise it fails, because its wait was
cancelled, because it has waited long enough or because its limit is too late for a wait, or it
waits. -/
inductive Contends (t : Thread) (generation : Int) (limit : Limit) (w : World ε) (x : View) :
    Except Failure Entry → World ε → View → Prop where
  /-- The token was idle. -/
  | opens {w' : World ε} (hx : x.owner = none)
      (hn : w'.sessions = w.sessions.add (.opened t.number (.text t.name) .none)) :
    Contends t generation limit w x (.ok .opened) w'
      { x with owner := some (w.sessions.next, t), depth := 1 }
  /-- The wait was cancelled. -/
  | cancelled (hx : x.owner ≠ none) (hg : generation ≠ x.generation) :
    Contends t generation limit w x (.error (.waitCancelled t.name)) w x
  /-- The thread has waited long enough. -/
  | late {s : Ref .session} {u : Thread} (limitText : String) (hx : x.owner = some (s, u))
      (hg : generation = x.generation) (hl : limit.hasPassed w.clock = true) :
    Contends t generation limit w x (.error (.busy (Text.quoted u.name) t.name limitText)) w x
  /-- The limit is too late for a wait. -/
  | tooLong {w' : World ε} (hx : x.owner ≠ none) (hg : generation = x.generation)
      (hl : limit = .excessive) (hs : w'.sessions = w.sessions) :
    Contends t generation limit w x (.error .waitTooLong) w' x
  /-- The thread waits. -/
  | sleeps {w' : World ε} (hx : x.owner ≠ none) (hg : generation = x.generation)
      (hl : limit.hasPassed w.clock = false) (hs : w'.sessions = w.sessions)
      (he : limit ≠ .excessive) :
    Contends t generation limit w x (.ok (.waits ⟨.int generation, limit, x.condition⟩)) w'
      { x with waiting := x.waiting + 1, asleep := x.asleep ++ [t] }

theorem equal_int (w : World ε) (i j : Int) : w.equal (.int i) (.int j) = decide (i = j) := by
  by_cases h : i = j
  · subst h
    simp [World.equal]
  · have hn : Value.same (.int i) (.int j) = false := by
      simp [Value.same, Value.number?, Value.Number.same, Value.Number.compare,
        Value.Number.fraction?, h]
    simp [World.equal, World.same, World.sameWithin, h, hn]

theorem plain_of_number {w : World ε} {v : Value} {n : Value.Number} (h : v.number? = some n) :
    ∃ s, w.plain v = .ok s := by
  cases v <;> simp [Value.number?] at h <;>
    simp [World.plain, World.plainWithin, World.literal, World.literalWithin]

theorem read_of_carried {w : World ε} {v x : Value} {name : String}
    (hg : w.getter? v name = none) (hc : (w.carried v).get? name = some x) :
    (Act.read v name).run w = (.ok x, w) := Act.read_run (World.member_of_carried hg hc)

theorem giveUp_run (α : Type) {t u : Thread} {w : World ε} {k : Ref .token} {x : View}
    {s : Ref .session} {n : Value.Number} (h : Shows w k x) (ho : x.owner = some (s, u))
    (hn : x.timeout.number? = some n) :
    ∃ limit, (giveUp t k (.session s) : Act ε α).run w =
      (.error (.busy (Text.quoted u.name) t.name limit), w) := by
  obtain ⟨limit, hl⟩ := plain_of_number (w := w) hn
  refine ⟨limit, ?_⟩
  have hg : w.getter? (.session s) Session.threadNameField = none := by
    simp [World.getter?, Session.threadNameField]
  have hr := read_of_carried hg (h.runs s u ho).name
  simp [giveUp, Act.run_bind, hr, World.literal, World.literalWithin, field, h.timeout, hl]

/-- What a thread does that takes an idle token. -/
theorem take_run (t : Thread) {w : World ε} {k : Ref .token} {x : View} (h : Shows w k x) :
    ∃ w', (take t k : Act ε Unit).run w = (.ok (), w') ∧
      Shows w' k { x with owner := some (w.sessions.next, t), depth := 1 } ∧ Aside k w w' ∧
      w'.sessions = w.sessions.add (.opened t.number (.text t.name) .none) := by
  let a := Session.opened t.number (.text t.name) .none
  let w₁ : World ε := { w with sessions := w.sessions.add a }
  have hr : RunsOn w₁ w.sessions.next t := by
    refine ⟨?_, ?_, ?_⟩
    · simp [w₁, World.carried, World.own?, Store.get_add, a, Session.opened, Attributes.get?]
    · simp [w₁, World.carried, World.own?, Store.get_add, a, Session.opened, Attributes.get?,
        Session.threadField, Session.threadNameField, List.lookup_cons]
    · simp [w₁, Store.next, Store.add]
  have h₁ : Shows w₁ k x := h.addSession a
  have h₂ := h₁.setOwner (o := some (w.sessions.next, t)) fun s u hs => by
    obtain ⟨rfl, rfl⟩ := Prod.mk.inj (Option.some.inj hs)
    exact hr
  refine ⟨_, ?_, h₂.setDepth 1, ?_, rfl⟩
  · simp only [take, Act.run_bind, Act.run_make, Act.run_setOwn]
    rfl
  · exact ((aside_addSession k w a).trans (aside_setOwn _ _ _ (by decide) _)).trans
      (aside_setOwn _ _ _ (by decide) _)

/-- What a thread does that begins to wait: either its limit is too late, or it sleeps. -/
theorem fallAsleep_run (t : Thread) {w : World ε} {k : Ref .token} {x : View} (h : Shows w k x)
    (generation : Int) (limit : Limit) :
    ∃ w', Aside k w w' ∧ w'.sessions = w.sessions ∧
      if limit = .excessive then
        (fallAsleep t k (.int generation) limit).run w = (.error .waitTooLong, w') ∧ Shows w' k x
      else
        (fallAsleep t k (.int generation) limit).run w =
          (.ok (.waits ⟨.int generation, limit, x.condition⟩), w') ∧
        Shows w' k { x with waiting := x.waiting + 1, asleep := x.asleep ++ [t] } := by
  have h₁ := h.setWaiting (x.waiting + 1)
  obtain ⟨copy, hc⟩ := h₁.condition
  have hup := countUp_run h.waiting
  by_cases hl : limit = .excessive
  · have h₂ := h₁.setWaiting x.waiting
    have hdown := countDown_run h₁.waiting
    rw [Int.add_sub_cancel] at hdown
    refine ⟨_, (aside_setOwn w k Token.waitingField (by decide) (.int (x.waiting + 1))).trans
      (aside_setOwn _ k Token.waitingField (by decide) (.int x.waiting)), rfl, ?_⟩
    rw [if_pos hl]
    refine ⟨?_, h₂⟩
    simp [fallAsleep, Act.run_bind, hup, field, hc, hl, hdown]
  · let w₁ := w.setOwn (.token k) Token.waitingField (.int (x.waiting + 1))
    let cs := w₁.conditions.modify x.condition fun y => ⟨y.asleep ++ [t]⟩
    have hcs : (cs.get x.condition).asleep = x.asleep ++ [t] := by
      simp only [cs, Store.get_modify, if_true]
      rw [h₁.asleep]
    refine ⟨{ w₁ with conditions := cs },
      (aside_setOwn _ _ _ (by decide) _).trans (aside_conditions ..), rfl, ?_⟩
    rw [if_neg hl]
    refine ⟨?_, h₁.setAsleep hcs⟩
    simp [-bind_pure_comp, fallAsleep, Act.run_bind, hup, field, hc, hl, w₁, cs]

/-- A thread that looks at a token. -/
theorem contend_run (t : Thread) {w : World ε} {k : Ref .token} {x : View} (h : Shows w k x)
    {n : Value.Number} (hn : x.timeout.number? = some n) (generation : Int) (limit : Limit) :
    ∃ r w' x', (contend t k (.int generation) limit).run w = (r, w') ∧
      Contends t generation limit w x r w' x' ∧ Shows w' k x' ∧ Aside k w w' := by
  cases ho : x.owner with
  | none =>
    obtain ⟨w', hrun, hs, ha, hsize⟩ := take_run t h
    refine ⟨_, w', _, ?_, .opens ho hsize, hs, ha⟩
    rw [contend_idle (by rw [h.session, ho]; rfl), Act.run_bind, hrun]
    rfl
  | some o =>
    obtain ⟨s, u⟩ := o
    have hne : x.owner ≠ none := by simp [ho]
    have hs : w.ownValue (.token k) Token.sessionField = .session s := by rw [h.session, ho]; rfl
    by_cases hg : generation = x.generation
    · by_cases hl : limit.hasPassed w.clock = true
      · obtain ⟨text, hrun⟩ := giveUp_run PUnit (t := t) h ho hn
        refine ⟨_, w, x, ?_, .late text ho hg hl, h, .refl k w⟩
        simp [contend, field, Act.run_bind, hs, h.generation, equal_int, hg, hl, hrun]
      · simp only [Bool.not_eq_true] at hl
        obtain ⟨w', ha, hsess, hrun⟩ := fallAsleep_run t h generation limit
        have hc : (contend t k (.int generation) limit).run w =
            (fallAsleep t k (.int generation) limit).run w := by
          simp [contend, field, Act.run_bind, hs, h.generation, equal_int, hg, hl]
        by_cases hle : limit = .excessive
        · rw [if_pos hle] at hrun
          exact ⟨_, w', x, hc.trans hrun.1, .tooLong hne hg hle hsess, hrun.2, ha⟩
        · rw [if_neg hle] at hrun
          exact ⟨_, w', _, hc.trans hrun.1, .sleeps hne hg hl hsess hle, hrun.2, ha⟩
    · refine ⟨_, w, x, ?_, .cancelled hne hg, h, .refl k w⟩
      simp [contend, field, Act.run_bind, hs, h.generation, equal_int, Ne.symm hg]

/-! ## Entries -/

/-- How an entry of a thread may end: the owner nests; any other thread fails if the timeout is no
time to wait, and looks at the token otherwise. -/
inductive Enters (t : Thread) (w : World ε) (x : View) :
    Except Failure Entry → World ε → View → Prop where
  /-- The thread holds the token already. -/
  | nests {s : Ref .session} {u : Thread} {w' : World ε} (hx : x.owner = some (s, u))
      (hu : u.id = t.id) (hs : w'.sessions = w.sessions) :
    Enters t w x (.ok .nested) w' { x with depth := x.depth + 1 }
  /-- The timeout is no time to wait. -/
  | untimed {f : Failure} (hx : ∀ s u, x.owner = some (s, u) → u.id ≠ t.id)
      (hf : Limit.ofOwnership w.clock (w.typeName x.timeout) x.timeout = .error f) :
    Enters t w x (.error f) w x
  /-- The thread looks at the token. -/
  | looks {limit : Limit} {r : Except Failure Entry} {w' : World ε} {x' : View}
      (hx : ∀ s u, x.owner = some (s, u) → u.id ≠ t.id)
      (hl : Limit.ofOwnership w.clock (w.typeName x.timeout) x.timeout = .ok limit)
      (hc : Contends t x.generation limit w x r w' x') :
    Enters t w x r w' x'

theorem sameNumber_number (t u : Thread) :
    Value.sameNumber u.number t.number = decide (u.id = t.id) := by
  simp only [Value.sameNumber, Thread.number, Value.number?, Value.Number.same,
    Value.Number.compare, Value.Number.fraction?]
  by_cases h : u.id = t.id
  · simp [h]
  · have : ((u.id : Nat) : Int) ≠ t.id := by omega
    simp [h, this]

theorem runsOn_run {w : World ε} {s : Ref .session} {u : Thread} (h : RunsOn w s u) (t : Thread) :
    (runsOn (.session s) t).run w = (.ok (decide (u.id = t.id)), w) := by
  have hg : w.getter? (.session s) Session.threadField = none := by
    simp [World.getter?, Session.threadField]
  have hr := read_of_carried hg h.number
  simp [-bind_pure_comp, runsOn, Act.run_bind, hr, sameNumber_number]

theorem isOwned_run {w : World ε} {k : Ref .token} {x : View} (h : Shows w k x) (t : Thread) :
    (isOwned t k).run w = (.ok (x.owner.any fun o => decide (o.2.id = t.id)), w) := by
  cases ho : x.owner with
  | none => simp [isOwned, field, Act.run_bind, h.session, ho, sessionOf]
  | some o =>
    obtain ⟨s, u⟩ := o
    simp [isOwned, field, Act.run_bind, h.session, ho, sessionOf, runsOn_run (h.runs s u ho)]

theorem number_of_ofOwnership {now : Nat} {typeName : String} {v : Value} {limit : Limit}
    (h : Limit.ofOwnership now typeName v = .ok limit) : ∃ n, v.number? = some n := by
  cases hv : v.number? with
  | none => simp [Limit.ofOwnership, hv] at h
  | some n => exact ⟨n, rfl⟩

/-- A thread that enters. -/
theorem enter_run (t : Thread) {w : World ε} {k : Ref .token} {x : View} (h : Shows w k x) :
    ∃ r w' x', (enter t k).run w = (r, w') ∧ Enters t w x r w' x' ∧ Shows w' k x' ∧
      Aside k w w' := by
  have ho := isOwned_run h t
  by_cases hx : ∃ s u, x.owner = some (s, u) ∧ u.id = t.id
  · obtain ⟨s, u, hs, hu⟩ := hx
    refine ⟨.ok .nested, w.setOwn (.token k) Token.depthField (.int (x.depth + 1)), _, ?_,
      .nests hs hu rfl, h.setDepth (x.depth + 1), aside_setOwn _ _ _ (by decide) _⟩
    rw [hs] at ho
    simp [-bind_pure_comp, enter, Act.run_bind, lock_run h, ho, hu, countUp_run h.depth]
  · have hn : ∀ s u, x.owner = some (s, u) → u.id ≠ t.id :=
      fun s u hs hu => hx ⟨s, u, hs, hu⟩
    have hany : (x.owner.any fun o => decide (o.2.id = t.id)) = false := by
      cases hxo : x.owner with
      | none => rfl
      | some o => simpa using hn o.1 o.2 hxo
    rw [hany] at ho
    cases hl : Limit.ofOwnership w.clock (w.typeName x.timeout) x.timeout with
    | error f =>
      refine ⟨_, w, x, ?_, .untimed hn hl, h, .refl k w⟩
      simp [enter, Act.run_bind, lock_run h, ho, field, h.timeout, hl]
    | ok limit =>
      obtain ⟨n, hnum⟩ := number_of_ofOwnership hl
      obtain ⟨r, w', x', hrun, hc, hs, ha⟩ := contend_run t h hnum x.generation limit
      refine ⟨r, w', x', ?_, .looks hn hl hc, hs, ha⟩
      simp [enter, Act.run_bind, lock_run h, ho, field, h.timeout, hl, h.generation, hrun]

section Enters

variable {t : Thread} {w w' : World ε} {x x' : View} {r : Except Failure Entry}

/-- Whoever holds the token enters a further block. -/
theorem Enters.of_owner (h : Enters t w x r w' x') {s : Ref .session} {u : Thread}
    (ho : x.owner = some (s, u)) (hu : u.id = t.id) :
    r = .ok .nested ∧ w'.sessions = w.sessions ∧ x' = { x with depth := x.depth + 1 } := by
  cases h with
  | nests _ _ hs => exact ⟨rfl, hs, rfl⟩
  | untimed hx | looks hx => exact absurd hu (hx s u ho)

/-- Whoever enters while the token is idle gets it, unless the timeout is no time to wait. -/
theorem Enters.of_idle (h : Enters t w x r w' x') (ho : x.owner = none) :
    (∃ f, Limit.ofOwnership w.clock (w.typeName x.timeout) x.timeout = .error f ∧
      r = .error f ∧ w' = w) ∨
    (∃ limit, Limit.ofOwnership w.clock (w.typeName x.timeout) x.timeout = .ok limit) ∧
      r = .ok .opened ∧ w'.sessions = w.sessions.add (.opened t.number (.text t.name) .none) ∧
      x' = { x with owner := some (w.sessions.next, t), depth := 1 } := by
  cases h with
  | nests hx => simp [ho] at hx
  | untimed hx hf => exact .inl ⟨_, hf, rfl, rfl⟩
  | looks hx hl hc =>
    cases hc with
    | opens _ hn => exact .inr ⟨⟨_, hl⟩, rfl, hn, rfl⟩
    | cancelled hne | tooLong hne | sleeps hne => exact absurd ho hne
    | late _ hx => simp [ho] at hx

end Enters

/-- A thread that looks again has left its wait by then. -/
theorem recheck_run (t : Thread) {w : World ε} {k : Ref .token} {x : View} (h : Shows w k x)
    (generation : Value) (limit : Limit) :
    ∃ w₁, (recheck t k ⟨generation, limit, x.condition⟩).run w =
        (contend t k generation limit).run w₁ ∧
      Shows w₁ k { x with waiting := x.waiting - 1, asleep := x.asleep.erase t } ∧
      Aside k w w₁ ∧ w₁.sessions = w.sessions ∧ w₁.clock = w.clock := by
  let cs := w.conditions.modify x.condition fun y => ⟨y.asleep.erase t⟩
  have hcs : (cs.get x.condition).asleep = x.asleep.erase t := by
    simp only [cs, Store.get_modify, if_true]
    rw [h.asleep]
  have h₁ := h.setAsleep hcs
  refine ⟨_, ?_, h₁.setWaiting (x.waiting - 1),
    (aside_conditions k w cs).trans (aside_setOwn _ _ _ (by decide) _), rfl, rfl⟩
  have hd := countDown_run h₁.waiting
  simp only [cs] at hd
  simp only [recheck, Act.run_bind, Act.run_change]
  rw [hd]

/-! ## Ends of blocks, and cancellations -/

theorem notifyAll_run {w : World ε} {k : Ref .token} {x : View} (h : Shows w k x) :
    (notifyAll k).run w =
        (.ok (), { w with conditions := w.conditions.set x.condition ⟨[]⟩ }) ∧
      Shows { w with conditions := w.conditions.set x.condition ⟨[]⟩ } k
        { x with asleep := [] } := by
  obtain ⟨copy, hc⟩ := h.condition
  exact ⟨by simp [notifyAll, field, Act.run_bind, hc], h.setAsleep (by simp)⟩

/-- The end of a block inside another one. -/
theorem release_nested {w : World ε} {k : Ref .token} {x : View} (h : Shows w k x)
    (hd : 1 < x.depth) :
    ∃ w', (release k).run w = (.ok none, w') ∧ Shows w' k { x with depth := x.depth - 1 } ∧
      Aside k w w' ∧ w'.sessions = w.sessions := by
  have h₁ := h.setDepth (x.depth - 1)
  refine ⟨_, ?_, h₁, aside_setOwn _ _ _ (by decide) _, rfl⟩
  simp [release, Act.run_bind, lock_run h, countDown_run h.depth, field, h₁.depth, Value.number?,
    Value.Number.isPositive, hd]

/-- The end of the outermost block: the session ends and all who wait are woken. -/
theorem release_outermost {w : World ε} {k : Ref .token} {x : View} (h : Shows w k x)
    (hd : x.depth ≤ 1) :
    ∃ w', (release k).run w = (.ok (some (sessionOf x.owner)), w') ∧
      Shows w' k { x with owner := none, depth := x.depth - 1, asleep := [] } ∧
      Aside k w w' ∧ w'.sessions = w.sessions ∧
      (w'.carried (.token k)).get? Token.sessionField = some .none := by
  have h₁ := h.setDepth (x.depth - 1)
  have h₂ := h₁.setOwner (o := none) (by simp)
  obtain ⟨hn, h₃⟩ := notifyAll_run h₂
  refine ⟨_, ?_, h₃, ((aside_setOwn w k Token.depthField (by decide) _).trans
    (aside_setOwn _ k Token.sessionField (by decide) _)).trans (aside_conditions ..), rfl, ?_⟩
  case refine_2 =>
    show ((World.setOwn _ (.token k) Token.sessionField .none).carried (.token k)).get? _ = _
    rw [World.carried_setOwn rfl, if_pos rfl, Attributes.get?_set, if_pos rfl]
  have hp : ¬ 1 < x.depth := by omega
  have hs := h₁.session
  simp only [sessionOf] at hs hn
  simp [-bind_pure_comp, release, Act.run_bind, lock_run h, countDown_run h.depth, field, h₁.depth,
    Value.number?, Value.Number.isPositive, hp, hs, hn, sessionOf]

/-- A cancellation wakes all who wait. -/
theorem cancel_run {w : World ε} {k : Ref .token} {x : View} (h : Shows w k x) :
    ∃ w', (cancel k).run w = (.ok (), w') ∧
      Shows w' k { x with generation := x.generation + 1, asleep := [] } ∧
      Aside k w w' ∧ w'.sessions = w.sessions := by
  have h₁ := h.setGeneration (x.generation + 1)
  obtain ⟨hn, h₂⟩ := notifyAll_run h₁
  refine ⟨_, ?_, h₂,
    (aside_setOwn w k Token.generationField (by decide) _).trans (aside_conditions ..), rfl⟩
  simp [cancel, Act.run_bind, lock_run h, countUp_run h.generation, hn]

/-! ## What a look at a token leaves alone -/

section Looks

variable {t : Thread} {w w' : World ε} {x x' : View} {r : Except Failure Entry}

/-- Whoever sleeps after a look at the token slept before or is the thread that looked. -/
theorem Contends.mem_asleep {g : Int} {limit : Limit} {u : Thread}
    (h : Contends t g limit w x r w' x') (hu : u ∈ x'.asleep) :
    u ∈ x.asleep ∨ u = t ∧ ∃ ticket, r = .ok (.waits ticket) := by
  cases h with
  | sleeps hx hg hl hs =>
    rcases List.mem_append.1 hu with hu | hu
    · exact .inl hu
    · exact .inr ⟨List.mem_singleton.1 hu, _, rfl⟩
  | _ => exact .inl hu

/-- A look at the token changes neither its condition nor its timeout nor the count of
cancellations. -/
theorem Contends.fixed {g : Int} {limit : Limit} (h : Contends t g limit w x r w' x') :
    x'.condition = x.condition ∧ x'.generation = x.generation ∧ x'.timeout = x.timeout := by
  cases h <;> exact ⟨rfl, rfl, rfl⟩

theorem Enters.fixed (h : Enters t w x r w' x') :
    x'.condition = x.condition ∧ x'.generation = x.generation ∧ x'.timeout = x.timeout := by
  cases h with
  | looks hx hl hc => exact hc.fixed
  | _ => exact ⟨rfl, rfl, rfl⟩

/-- An attempt that does not get the token leaves the session in flight, the number of open blocks
and all sessions as they were. -/
theorem Contends.missed {g : Int} {limit : Limit} (h : Contends t g limit w x r w' x')
    (hr : gets r = false) :
    x'.owner = x.owner ∧ x'.depth = x.depth ∧ w'.sessions = w.sessions := by
  cases h with
  | opens hx hn => simp [gets] at hr
  | tooLong hx hg hl hs | sleeps hx hg hl hs => exact ⟨rfl, rfl, hs⟩
  | _ => exact ⟨rfl, rfl, rfl⟩

theorem Enters.missed (h : Enters t w x r w' x') (hr : gets r = false) :
    x'.owner = x.owner ∧ x'.depth = x.depth ∧ w'.sessions = w.sessions := by
  cases h with
  | nests hx hu hs => simp [gets] at hr
  | untimed hx hf => exact ⟨rfl, rfl, rfl⟩
  | looks hx hl hc => exact hc.missed hr

end Looks

end Ownership

end GuardedWalk
