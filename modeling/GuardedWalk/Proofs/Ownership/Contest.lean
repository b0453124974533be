import GuardedWalk.Config
import GuardedWalk.Proofs.Ownership.Token

/-!
# Threads that contend for a token

Any number of threads enter blocks that hold a token, wait for it, look again, end their blocks and
cancel waits, in any order. A step of this system is one section that runs under the lock of the
token; blocks of one thread end from the inside out, whatever ends them.

## Main definitions

* `GuardedWalk.Ownership.Contest` — the world with the open blocks and the waits.
* `GuardedWalk.Ownership.Contest.Step`, `Runs` — one step, and any number of them.
* `GuardedWalk.Ownership.Contest.Sound` — what holds throughout.

## Main results

* `GuardedWalk.Ownership.Contest.Sound.step` — every step keeps what holds throughout.
* `GuardedWalk.Ownership.Contest.Runs.sound` — so it holds after any run.

## Design

A thread that waits may look again at any time here, not only after it was woken or its limit has
passed; what holds of all these runs holds of those in which it does not.
-/

set_option autoImplicit false

namespace GuardedWalk

namespace Ownership

variable {ε : Type}

/-- A block that holds a token. -/
structure Block where
  /-- The thread that is inside the block. -/
  thread : Thread
  /-- The session that the block was given. -/
  session : Value
  /-- The event that is broadcast inside the block, if it is that of an entry method. -/
  event? : Option Event

/-- A thread that is inside a wait. -/
structure Wait where
  /-- The thread. -/
  thread : Thread
  /-- What it remembers of the moment at which it came. -/
  ticket : Ticket
  /-- The event that will be broadcast, if the thread is inside an entry method. -/
  event? : Option Event

/-- The threads that contend for a token. -/
structure Contest (ε : Type) where
  /-- The world. -/
  world : World ε
  /-- The open blocks, the latest first. -/
  blocks : List Block
  /-- The waits that have not ended. -/
  waits : List Wait
  /-- The sessions of all walks so far, the latest first. -/
  sessions : List Value

namespace Contest

variable {k : Ref .token}

/-- The session in flight. -/
def session (k : Ref .token) (s : Contest ε) : Value :=
  s.world.ownValue (.token k) Token.sessionField

/-- How many blocks are open, as the token counts them. -/
def depth (k : Ref .token) (s : Contest ε) : Value :=
  s.world.ownValue (.token k) Token.depthField

/-- How many threads wait, as the token counts them. -/
def waiting (k : Ref .token) (s : Contest ε) : Value :=
  s.world.ownValue (.token k) Token.waitingField

/-- An attempt of a thread to begin a block has come to an end or to a wait. -/
def settled (k : Ref .token) (s : Contest ε) (t : Thread) (e? : Option Event) :
    Except Failure Entry × World ε → Contest ε
  | (.ok .nested, w) =>
    { s with
      world := w
      blocks := ⟨t, w.ownValue (.token k) Token.sessionField, e?⟩ :: s.blocks }
  | (.ok .opened, w) =>
    let session := w.ownValue (.token k) Token.sessionField
    { s with
      world := w
      blocks := ⟨t, session, e?⟩ :: s.blocks
      sessions := session :: s.sessions }
  | (.ok (.waits ticket), w) => { s with world := w, waits := ⟨t, ticket, e?⟩ :: s.waits }
  | (.error _, w) => { s with world := w }

@[simp] theorem settled_world (s : Contest ε) (t : Thread) (e? : Option Event)
    (p : Except Failure Entry × World ε) : (s.settled k t e? p).world = p.2 := by
  obtain ⟨r, w⟩ := p
  rcases r with f | (_ | _ | ticket) <;> rfl

/-- What happens elsewhere: the token is left alone, with what sleeps on its condition, and sessions
go on to run on the threads that they were opened for. -/
structure Elsewhere (k : Ref .token) (w w' : World ε) : Prop where
  token : w'.carried (.token k) = w.carried (.token k)
  asleep : ∀ c copy, w.ownValue (.token k) Token.conditionField = .condition c copy →
    (w'.conditions.get c).asleep = (w.conditions.get c).asleep
  sessions : ∀ s t, RunsOn w s t → RunsOn w' s t
  size : w.sessions.cells.size ≤ w'.sessions.cells.size

/-- What a step is. -/
inductive Label where
  /-- A thread has entered. -/
  | enter (t : Thread) (e? : Option Event) (r : Except Failure Entry)
  /-- A thread has looked again. -/
  | recheck (x : Wait) (r : Except Failure Entry)
  /-- A block has ended. -/
  | release (b : Block) (r : Except Failure (Option Value))
  /-- All waits have been cancelled. -/
  | cancel (r : Except Failure Unit)
  /-- Something has happened elsewhere. -/
  | elsewhere

/-- One step. -/
inductive Step (k : Ref .token) (s : Contest ε) : Label → Contest ε → Prop where
  /-- A thread that is not inside a wait enters. -/
  | enter (t : Thread) (e? : Option Event) (hw : ∀ x ∈ s.waits, x.thread.id ≠ t.id) :
    Step k s (.enter t e? ((Ownership.enter t k).run s.world).1)
      (s.settled k t e? ((Ownership.enter t k).run s.world))
  /-- A thread that is inside a wait looks again. -/
  | recheck (x : Wait) (before after : List Wait) (hx : s.waits = before ++ x :: after) :
    Step k s (.recheck x ((Ownership.recheck x.thread k x.ticket).run s.world).1)
      (({ s with waits := before ++ after } : Contest ε).settled k x.thread x.event?
        ((Ownership.recheck x.thread k x.ticket).run s.world))
  /-- The latest block of a thread ends. -/
  | release (b : Block) (before after : List Block) (hb : s.blocks = before ++ b :: after)
      (latest : ∀ b' ∈ before, b'.thread.id ≠ b.thread.id) :
    Step k s (.release b ((Ownership.release k).run s.world).1)
      { s with world := ((Ownership.release k).run s.world).2, blocks := before ++ after }
  /-- All waits are cancelled. -/
  | cancel :
    Step k s (.cancel ((Ownership.cancel k).run s.world).1)
      { s with world := ((Ownership.cancel k).run s.world).2 }
  /-- Something happens elsewhere. -/
  | elsewhere (w' : World ε) (hw : Elsewhere k s.world w') :
    Step k s .elsewhere { s with world := w' }

/-- Any number of steps. -/
inductive Runs (k : Ref .token) : Contest ε → List Label → Contest ε → Prop where
  /-- No step. -/
  | refl (s : Contest ε) : Runs k s [] s
  /-- Steps and one more. -/
  | snoc {s s' s'' : Contest ε} {ls : List Label} {l : Label} (h : Runs k s ls s')
      (hl : Step k s' l s'') : Runs k s (ls ++ [l]) s''

/-- In the beginning the token has just been made, with some timeout, and nobody holds it or waits
for it. -/
structure Starts (k : Ref .token) (s : Contest ε) : Prop where
  fresh : ∃ (timeout : Value) (c copy : Ref .condition),
    s.world.tokens.get k = .new timeout (.condition c copy) ∧
      (s.world.conditions.get c).asleep = []
  blocks : s.blocks = []
  waits : s.waits = []
  sessions : s.sessions = []

/-! ## What holds throughout -/

/-- What holds throughout of what a token keeps. -/
structure Sound (k : Ref .token) (s : Contest ε) (x : View) : Prop where
  shows : Shows s.world k x
  depth : x.depth = s.blocks.length
  waiting : x.waiting = s.waits.length
  /-- There is a session exactly while blocks are open. -/
  owned : x.owner.isSome ↔ s.blocks ≠ []
  /-- All open blocks have the session in flight and belong to its thread. -/
  blocks : ∀ b ∈ s.blocks, ∃ r u, x.owner = some (r, u) ∧ b.session = .session r ∧
    b.thread.id = u.id
  /-- Waits are measured by a number, and wait on the condition of the token. -/
  waits : ∀ y ∈ s.waits, (∃ n, x.timeout.number? = some n) ∧
    ∃ g limit, y.ticket = ⟨.int g, limit, x.condition⟩ ∧ g ≤ x.generation
  /-- No thread waits twice. -/
  once : s.waits.Pairwise fun y z => y.thread.id ≠ z.thread.id
  /-- No two walks have had the same session, and the session in flight is the latest. -/
  sessions : s.sessions.Nodup
  latest : ∀ r u, x.owner = some (r, u) → s.sessions.head? = some (.session r)
  stored : ∀ v ∈ s.sessions, ∃ r : Ref .session, v = .session r ∧
    r.index < s.world.sessions.cells.size

section Sound

variable {s : Contest ε} {x : View}

/-- Nothing is open while nobody owns the token. -/
theorem Sound.blocks_nil (h : Sound k s x) (ho : x.owner = none) : s.blocks = [] := by
  cases hb : s.blocks with
  | nil => rfl
  | cons b rest =>
    have := h.owned.2 (by simp [hb])
    simp [ho] at this

/-- The sessions of all walks so far are still there as long as no session goes away. -/
theorem Sound.stored_of_size (h : Sound k s x) {w' : World ε}
    (hs : s.world.sessions.cells.size ≤ w'.sessions.cells.size) {v : Value} (hv : v ∈ s.sessions) :
    ∃ r : Ref .session, v = .session r ∧ r.index < w'.sessions.cells.size := by
  obtain ⟨r, rfl, hr⟩ := h.stored v hv
  exact ⟨r, rfl, Nat.lt_of_lt_of_le hr hs⟩

/-- A change of the world that does not show in the token. -/
theorem Sound.moved (h : Sound k s x) {w' : World ε} {l : List Thread}
    (hw : Shows w' k { x with asleep := l })
    (hs : s.world.sessions.cells.size ≤ w'.sessions.cells.size) :
    Sound k { s with world := w' } { x with asleep := l } where
  shows := hw
  depth := h.depth
  waiting := h.waiting
  owned := h.owned
  blocks := h.blocks
  waits := h.waits
  once := h.once
  sessions := h.sessions
  latest := h.latest
  stored _ hv := h.stored_of_size hs hv

/-- The session of a token that a block is given. -/
theorem session_eq {w : World ε} (h : Shows w k x) {r : Ref .session} {u : Thread}
    (ho : x.owner = some (r, u)) :
    w.ownValue (.token k) Token.sessionField = .session r := by
  rw [h.session, ho]
  rfl

/-- A thread takes the idle token. Its session is none of those before, since it has just been made,
and its block is the only one that is open. -/
theorem Sound.opens (h : Sound k s x) {t : Thread} {w' : World ε} (hx : x.owner = none)
    (hadd : w'.sessions = s.world.sessions.add (.opened t.number (.text t.name) .none))
    (hw : Shows w' k { x with owner := some (s.world.sessions.next, t), depth := 1 })
    (e? : Option Event) : Sound k (s.settled k t e? (.ok .opened, w'))
      { x with owner := some (s.world.sessions.next, t), depth := 1 } := by
  have hsize : s.world.sessions.cells.size < w'.sessions.cells.size := by simp [hadd, Store.add]
  have hsess := session_eq hw rfl
  have hnil := h.blocks_nil hx
  refine
    { shows := hw
      depth := by simp [settled, hnil]
      waiting := h.waiting
      owned := by simp [settled]
      blocks := fun b hb => ?_
      waits := h.waits
      once := h.once
      sessions := ?_
      latest := fun r u hr => ?_
      stored := fun v hv => ?_ }
  · simp only [settled, hnil, List.mem_singleton] at hb
    subst hb
    exact ⟨_, t, rfl, hsess, rfl⟩
  · simp only [settled, hsess, List.nodup_cons]
    refine ⟨fun hm => ?_, h.sessions⟩
    obtain ⟨r, hr, hlt⟩ := h.stored _ hm
    cases hr
    exact Nat.lt_irrefl _ hlt
  · cases hr
    simp [settled, hsess]
  · simp only [settled, hsess, List.mem_cons] at hv
    rcases hv with rfl | hv
    · exact ⟨_, rfl, hsize⟩
    · exact h.stored_of_size (Nat.le_of_lt hsize) hv

/-- A thread begins to wait. -/
theorem Sound.sleeps (h : Sound k s x) {t : Thread} {g : Int} {limit : Limit} {w' : World ε}
    {l : List Thread} (hw : Shows w' k { x with waiting := x.waiting + 1, asleep := l })
    (hs : s.world.sessions.cells.size ≤ w'.sessions.cells.size)
    (ht : ∀ y ∈ s.waits, y.thread.id ≠ t.id) (hg : g ≤ x.generation)
    (hn : ∃ n, x.timeout.number? = some n) (e? : Option Event) :
    Sound k (s.settled k t e? (.ok (.waits ⟨.int g, limit, x.condition⟩), w'))
      { x with waiting := x.waiting + 1, asleep := l } where
  shows := hw
  depth := h.depth
  waiting := by simp [settled, h.waiting]
  owned := h.owned
  blocks := h.blocks
  waits y hy := by
    rcases List.mem_cons.1 hy with rfl | hy
    · exact ⟨hn, g, limit, rfl, hg⟩
    · exact h.waits y hy
  once := List.pairwise_cons.2 ⟨fun y hy => (ht y hy).symm, h.once⟩
  sessions := h.sessions
  latest := h.latest
  stored _ hv := h.stored_of_size hs hv

/-- A look at the token keeps what holds throughout. -/
theorem Sound.contends (h : Sound k s x) {t : Thread} {g : Int} {limit : Limit}
    {r : Except Failure Entry} {w' : World ε} {x' : View}
    (hc : Contends t g limit s.world x r w' x') (hw : Shows w' k x') (ha : Aside k s.world w')
    (ht : ∀ y ∈ s.waits, y.thread.id ≠ t.id) (hg : g ≤ x.generation)
    (hn : ∃ n, x.timeout.number? = some n) (e? : Option Event) :
    Sound k (s.settled k t e? (r, w')) x' := by
  cases hc with
  | opens hx hadd => exact h.opens hx hadd hw e?
  | cancelled hx hne => exact h
  | late text hx hge hl => exact h
  | tooLong hx hge hl hs => exact h.moved hw ha.size
  | sleeps hx hge hl hs => exact h.sleeps hw ha.size ht hg hn e?

/-- An entry keeps what holds throughout. -/
theorem Sound.enters (h : Sound k s x) {t : Thread} {r : Except Failure Entry} {w' : World ε}
    {x' : View} (he : Enters t s.world x r w' x') (hw : Shows w' k x') (ha : Aside k s.world w')
    (ht : ∀ y ∈ s.waits, y.thread.id ≠ t.id) (e? : Option Event) :
    Sound k (s.settled k t e? (r, w')) x' := by
  cases he with
  | nests hx hu hs =>
    have hsess := session_eq hw hx
    exact
      { shows := hw
        depth := by simp [settled, h.depth]
        waiting := h.waiting
        owned := by simp [settled, hx]
        blocks := by
          intro b hb
          simp only [settled, List.mem_cons] at hb
          rcases hb with rfl | hb
          · exact ⟨_, _, hx, hsess, hu.symm⟩
          · exact h.blocks b hb
        waits := h.waits
        once := h.once
        sessions := h.sessions
        latest := h.latest
        stored := fun _ hv => h.stored_of_size ha.size hv }
  | untimed hx hf => exact h
  | looks hx hl hc =>
    exact h.contends hc hw ha ht (Int.le_refl _) (number_of_ofOwnership hl) e?

/-- The blocks of a contest all belong to one thread, so the latest block of a thread is the latest
of all. -/
theorem Sound.latest_block (h : Sound k s x) {b : Block} {before after : List Block}
    (hb : s.blocks = before ++ b :: after) (hl : ∀ b' ∈ before, b'.thread.id ≠ b.thread.id) :
    before = [] := by
  cases before with
  | nil => rfl
  | cons b' rest =>
    obtain ⟨r, u, hx, -, hu⟩ := h.blocks b (by simp [hb])
    obtain ⟨r', u', hx', -, hu'⟩ := h.blocks b' (by simp [hb])
    obtain ⟨-, rfl⟩ := Prod.mk.inj (Option.some.inj (hx.symm.trans hx'))
    exact absurd (hu'.trans hu.symm) (hl b' (by simp))

/-- The end of a block inside another one keeps what holds throughout. -/
theorem Sound.releases_nested (h : Sound k s x) {b c : Block} {after : List Block} {w' : World ε}
    (hb : s.blocks = b :: c :: after) (hw : Shows w' k { x with depth := x.depth - 1 })
    (ha : Aside k s.world w') :
    Sound k { s with world := w', blocks := c :: after } { x with depth := x.depth - 1 } where
  shows := hw
  depth := by simp [h.depth, hb]
  waiting := h.waiting
  owned := by simp [h.owned, hb]
  blocks b' hb' := h.blocks b' (by rw [hb]; exact List.mem_cons_of_mem _ hb')
  waits := h.waits
  once := h.once
  sessions := h.sessions
  latest := h.latest
  stored _ hv := h.stored_of_size ha.size hv

/-- The end of the outermost block keeps what holds throughout. -/
theorem Sound.releases_outermost (h : Sound k s x) {b : Block} {w' : World ε}
    (hb : s.blocks = [b])
    (hw : Shows w' k { x with owner := none, depth := x.depth - 1, asleep := [] })
    (ha : Aside k s.world w') :
    Sound k { s with world := w', blocks := [] }
      { x with owner := none, depth := x.depth - 1, asleep := [] } where
  shows := hw
  depth := by simp [h.depth, hb]
  waiting := h.waiting
  owned := by simp
  blocks b' hb' := by simp at hb'
  waits := h.waits
  once := h.once
  sessions := h.sessions
  latest r u hr := by simp at hr
  stored _ hv := h.stored_of_size ha.size hv

/-- A cancellation keeps what holds throughout. -/
theorem Sound.cancels (h : Sound k s x) {w' : World ε}
    (hw : Shows w' k { x with generation := x.generation + 1, asleep := [] })
    (ha : Aside k s.world w') :
    Sound k { s with world := w' } { x with generation := x.generation + 1, asleep := [] } where
  shows := hw
  depth := h.depth
  waiting := h.waiting
  owned := h.owned
  blocks := h.blocks
  waits y hy := by
    obtain ⟨hn, g, limit, ht, hg⟩ := h.waits y hy
    exact ⟨hn, g, limit, ht, Int.le_trans hg (Int.le_add_one (Int.le_refl _))⟩
  once := h.once
  sessions := h.sessions
  latest := h.latest
  stored _ hv := h.stored_of_size ha.size hv

/-- What happens elsewhere does not show in the token. -/
theorem Elsewhere.shows {w w' : World ε} (he : Elsewhere k w w') (h : Shows w k x) :
    Shows w' k x := by
  have hv (name : String) : w'.ownValue (.token k) name = w.ownValue (.token k) name := by
    rw [World.ownValue_eq, World.ownValue_eq, he.token]
  obtain ⟨copy, hc⟩ := h.condition
  exact
    { session := (hv _).trans h.session
      depth := (hv _).trans h.depth
      generation := (hv _).trans h.generation
      waiting := (hv _).trans h.waiting
      condition := ⟨copy, (hv _).trans hc⟩
      asleep := (he.asleep _ _ hc).trans h.asleep
      timeout := (hv _).trans h.timeout
      runs := fun s t hs => he.sessions s t (h.runs s t hs) }

/-- All other waits are those of other threads. -/
theorem Sound.others (h : Sound k s x) {y : Wait} {before after : List Wait}
    (hy : s.waits = before ++ y :: after) {z : Wait} (hz : z ∈ before ++ after) :
    z ∈ s.waits ∧ z.thread.id ≠ y.thread.id := by
  have hp := h.once
  rw [hy] at hp
  obtain ⟨-, hya, hab⟩ := List.pairwise_append.1 hp
  rcases List.mem_append.1 hz with hz | hz
  · exact ⟨by simp [hy, hz], hab z hz y List.mem_cons_self⟩
  · exact ⟨by simp [hy, hz], ((List.pairwise_cons.1 hya).1 z hz).symm⟩

/-- A wait that has ended leaves the others as they are. -/
theorem Sound.leaves (h : Sound k s x) {y : Wait} {before after : List Wait}
    (hy : s.waits = before ++ y :: after) {w₁ : World ε}
    (hw : Shows w₁ k { x with waiting := x.waiting - 1, asleep := x.asleep.erase y.thread })
    (ha : Aside k s.world w₁) :
    Sound k { s with world := w₁, waits := before ++ after }
      { x with waiting := x.waiting - 1, asleep := x.asleep.erase y.thread } where
  shows := hw
  depth := h.depth
  waiting := by simp [h.waiting, hy]; omega
  owned := h.owned
  blocks := h.blocks
  waits z hz := h.waits z (h.others hy hz).1
  once := by
    refine List.Pairwise.sublist ?_ h.once
    rw [hy]
    exact (List.sublist_cons_self y after).append_left before
  sessions := h.sessions
  latest := h.latest
  stored _ hv := h.stored_of_size ha.size hv

end Sound

/-! ## Steps -/

/-- What a step makes of the token: `w` and `x` are the world and the view before it. -/
inductive Turns (k : Ref .token) (w : World ε) (x : View) : Label → World ε → View → Prop where
  | enter {t : Thread} {e? : Option Event} {r : Except Failure Entry} {w' : World ε} {x' : View}
      (h : Enters t w x r w' x') (ha : Aside k w w') : Turns k w x (.enter t e? r) w' x'
  | recheck {y : Wait} {g : Int} {limit : Limit} {r : Except Failure Entry} {w₁ w' : World ε}
      {x' : View} (hy : y.ticket = ⟨.int g, limit, x.condition⟩)
      (h₁ : w₁.sessions = w.sessions ∧ w₁.clock = w.clock)
      (h : Contends y.thread g limit w₁
        { x with waiting := x.waiting - 1, asleep := x.asleep.erase y.thread } r w' x')
      (ha : Aside k w w') : Turns k w x (.recheck y r) w' x'
  | nested {b : Block} {w' : World ε} (ha : Aside k w w') :
    Turns k w x (.release b (.ok none)) w' { x with depth := x.depth - 1 }
  | outermost {b : Block} {w' : World ε} (ha : Aside k w w') :
    Turns k w x (.release b (.ok (some b.session))) w'
      { x with owner := none, depth := x.depth - 1, asleep := [] }
  | cancel {w' : World ε} (ha : Aside k w w') :
    Turns k w x (.cancel (.ok ())) w' { x with generation := x.generation + 1, asleep := [] }
  | elsewhere {w' : World ε} : Turns k w x .elsewhere w' x

/-- The attempt to get the token that a step is, if it is one: the thread, and how it went. -/
def Label.attempt? : Label → Option (Thread × Except Failure Entry)
  | .enter t _ r => some (t, r)
  | .recheck y r => some (y.thread, r)
  | _ => none

section Turns

variable {k : Ref .token} {w w' : World ε} {x x' : View} {l : Label} {t : Thread}
  {ticket : Ticket}

theorem Turns.condition (h : Turns k w x l w' x') : x'.condition = x.condition := by
  cases h with
  | enter he ha => exact he.fixed.1
  | recheck hy h₁ hc ha => exact hc.fixed.1
  | _ => rfl

/-- Only cancellations are counted. -/
theorem Turns.generation (h : Turns k w x l w' x') :
    x.generation ≤ x'.generation ∧ ((∀ r, l ≠ .cancel r) → x'.generation = x.generation) := by
  cases h with
  | enter he ha => exact ⟨Int.le_of_eq he.fixed.2.1.symm, fun _ => he.fixed.2.1⟩
  | recheck hy h₁ hc ha => exact ⟨Int.le_of_eq hc.fixed.2.1.symm, fun _ => hc.fixed.2.1⟩
  | cancel ha => exact ⟨Int.le_add_one (Int.le_refl _), fun h => absurd rfl (h _)⟩
  | _ => exact ⟨Int.le_refl _, fun _ => rfl⟩

/-- Whoever sleeps after a step slept before or has begun to wait. -/
theorem Turns.mem_asleep (h : Turns k w x l w' x') (ht : t ∈ x'.asleep) :
    t ∈ x.asleep ∨ ∃ ticket, l.attempt? = some (t, .ok (.waits ticket)) := by
  cases h with
  | enter he ha =>
    cases he with
    | looks hx hl hc =>
      rcases hc.mem_asleep ht with ht | ⟨rfl, ticket, rfl⟩
      · exact .inl ht
      · exact .inr ⟨ticket, rfl⟩
    | _ => exact .inl ht
  | recheck hy h₁ hc ha =>
    rcases hc.mem_asleep ht with ht | ⟨rfl, ticket, rfl⟩
    · exact .inl (List.mem_of_mem_erase ht)
    · exact .inr ⟨ticket, rfl⟩
  | outermost ha | cancel ha => simp at ht
  | _ => exact .inl ht

/-- Whoever begins to wait remembers how often waits have been cancelled. -/
theorem Turns.ticket_generation (h : Turns k w x l w' x')
    (hl : l.attempt? = some (t, .ok (.waits ticket))) :
    ticket.generation = .int x'.generation := by
  cases h with
  | enter he ha =>
    cases he with
    | looks hx hlim hc =>
      rcases hc with _ | _ | _ | _ | ⟨hx', hg, hlim', hs⟩ <;> simp_all [Label.attempt?]
      rw [← hl.2]
    | _ => simp_all [Label.attempt?]
  | recheck hy h₁ hc ha =>
    rcases hc with _ | _ | _ | _ | ⟨hx', hg, hlim', hs⟩ <;> simp_all [Label.attempt?]
    rw [← hl.2]
  | _ => simp [Label.attempt?] at hl

/-- Only a thread that waited before the latest cancellation is told that its wait was
cancelled. -/
theorem Turns.of_cancelled {name : String} (h : Turns k w x l w' x')
    (hl : l.attempt? = some (t, .error (.waitCancelled name))) :
    ∃ y r, l = .recheck y r ∧ y.ticket.generation ≠ .int x.generation := by
  cases h with
  | enter he ha =>
    cases he with
    | untimed hx hf =>
      simp only [Label.attempt?, Option.some.injEq, Prod.mk.injEq, Except.error.injEq] at hl
      rw [hl.2] at hf
      simp only [Limit.ofOwnership] at hf
      repeat' split at hf
      all_goals simp at hf
    | looks hx hlim hc =>
      cases hc with
      | cancelled hx hg => exact absurd rfl hg
      | _ => simp [Label.attempt?] at hl
    | _ => simp [Label.attempt?] at hl
  | recheck hy h₁ hc ha =>
    cases hc with
    | cancelled hx hg => exact ⟨_, _, rfl, by rw [hy]; simpa using hg⟩
    | _ => simp [Label.attempt?] at hl
  | _ => simp [Label.attempt?] at hl

end Turns

/-- Every step keeps what holds throughout. -/
theorem Sound.step {s s' : Contest ε} {x : View} {l : Label} (h : Sound k s x)
    (hl : Step k s l s') : ∃ x', Turns k s.world x l s'.world x' ∧ Sound k s' x' := by
  cases hl with
  | enter t e? hw =>
    obtain ⟨r, w', x', hrun, he, hs, ha⟩ := enter_run t h.shows
    rw [hrun]
    refine ⟨x', ?_, h.enters he hs ha hw e?⟩
    rw [settled_world]
    exact .enter he ha
  | recheck y before after hy =>
    -- the wait ends first, and then its thread looks at the token like any other
    obtain ⟨⟨n, hn⟩, g, limit, ht, hg⟩ := h.waits y (by simp [hy])
    obtain ⟨w₁, hrun, hw₁, ha₁, hs₁, hc₁⟩ := recheck_run y.thread h.shows (.int g) limit
    obtain ⟨r, w', x', hrun', hc, hs, ha⟩ := contend_run y.thread hw₁ hn g limit
    have hleft := h.leaves hy hw₁ ha₁
    rw [ht, hrun, hrun']
    refine ⟨x', ?_, hleft.contends hc hs ha (fun z hz => (h.others hy hz).2) hg ⟨n, hn⟩ y.event?⟩
    rw [settled_world]
    exact .recheck ht ⟨hs₁, hc₁⟩ hc (ha₁.trans ha)
  | release b before after hb latest =>
    obtain rfl := h.latest_block hb latest
    cases after with
    | nil =>
      have hd : x.depth ≤ 1 := by simp [h.depth, hb]
      obtain ⟨w', hrun, hs, ha, -⟩ := release_outermost h.shows hd
      obtain ⟨r, u, hx, hsess, -⟩ := h.blocks b (by simp [hb])
      have hres : sessionOf x.owner = b.session := by rw [hx, hsess]; rfl
      rw [hrun, hres]
      exact ⟨_, .outermost ha, h.releases_outermost hb hs ha⟩
    | cons c rest =>
      have hd : 1 < x.depth := by
        simp only [h.depth, hb, List.nil_append, List.length_cons]
        omega
      obtain ⟨w', hrun, hs, ha, -⟩ := release_nested h.shows hd
      rw [hrun]
      exact ⟨_, .nested ha, h.releases_nested hb hs ha⟩
  | cancel =>
    obtain ⟨w', hrun, hs, ha, -⟩ := cancel_run h.shows
    rw [hrun]
    exact ⟨_, .cancel ha, h.cancels hs ha⟩
  | elsewhere w' hw => exact ⟨x, .elsewhere, h.moved (hw.shows h.shows) hw.size⟩

/-- A wait that there is after a step was there before, and its thread has not tried to get the
token, or it has begun with the step. -/
theorem Sound.mem_waits {s s' : Contest ε} {x : View} {l : Label} {z : Wait} (h : Sound k s x)
    (hl : Step k s l s') (hz : z ∈ s'.waits) :
    (z ∈ s.waits ∧ ∀ p, l.attempt? = some p → z.thread.id ≠ p.1.id) ∨
      l.attempt? = some (z.thread, .ok (.waits z.ticket)) := by
  cases hl with
  | enter t e? hw =>
    generalize (Ownership.enter t k).run s.world = p at hz ⊢
    obtain ⟨r, w'⟩ := p
    rcases r with f | (_ | _ | ticket)
    case ok.waits =>
      rcases List.mem_cons.1 hz with rfl | hz
      · exact .inr rfl
      · exact .inl ⟨hz, by simpa [Label.attempt?] using hw z hz⟩
    all_goals exact .inl ⟨hz, by simpa [Label.attempt?] using hw z hz⟩
  | recheck y before after hy =>
    generalize (Ownership.recheck y.thread k y.ticket).run s.world = p at hz ⊢
    obtain ⟨r, w'⟩ := p
    rcases r with f | (_ | _ | ticket)
    case ok.waits =>
      rcases List.mem_cons.1 hz with rfl | hz
      · exact .inr rfl
      · obtain ⟨hwait, hother⟩ := h.others hy hz
        exact .inl ⟨hwait, by simpa [Label.attempt?] using hother⟩
    all_goals
      obtain ⟨hwait, hother⟩ := h.others hy hz
      exact .inl ⟨hwait, by simpa [Label.attempt?] using hother⟩
  | release b before after hb latest => exact .inl ⟨hz, by simp [Label.attempt?]⟩
  | cancel => exact .inl ⟨hz, by simp [Label.attempt?]⟩
  | elsewhere w' hw => exact .inl ⟨hz, by simp [Label.attempt?]⟩

/-- What holds throughout holds in the beginning. -/
theorem Starts.sound {s : Contest ε} (h : Starts k s) : ∃ x, Sound k s x := by
  obtain ⟨timeout, c, copy, ht, hc⟩ := h.fresh
  have hv (name : String) :
      s.world.ownValue (.token k) name =
        (Token.new timeout (.condition c copy)).attributes.value name := by
    simp [World.ownValue, World.own?, ht]
  refine ⟨⟨none, 0, 0, 0, c, [], timeout⟩, ?_⟩
  exact
    { shows :=
        { session := hv _
          depth := hv _
          generation := hv _
          waiting := hv _
          condition := ⟨copy, hv _⟩
          asleep := hc
          timeout := hv _
          runs := by simp }
      depth := by simp [h.blocks]
      waiting := by simp [h.waits]
      owned := by simp [h.blocks]
      blocks := by simp [h.blocks]
      waits := by simp [h.waits]
      once := by simp [h.waits]
      sessions := by simp [h.sessions]
      latest := by simp
      stored := by simp [h.sessions] }

/-- What holds throughout holds after any run. -/
theorem Runs.sound {s s' : Contest ε} {ls : List Label} (h : Runs k s ls s') (hs : Starts k s) :
    ∃ x, Sound k s' x := by
  induction h with
  | refl => exact hs.sound
  | snoc hr hl ih =>
    obtain ⟨x, hx⟩ := ih
    obtain ⟨x', -, hx'⟩ := hx.step hl
    exact ⟨x', hx'⟩

/-! ## Two threads

A thread holds a token that has just been made, and a second one waits for it. -/

namespace Race

/-- The token. -/
def token : Ref .token := ⟨0⟩

/-- The thread that comes first. -/
def owner : Thread := ⟨1, "A"⟩

/-- The block of that thread, in which a step is broadcast. -/
def block : Block := ⟨owner, .session ⟨0⟩, some .step⟩

/-- The wait of the thread that comes second. -/
def wait : Wait := ⟨⟨2, "B"⟩, ⟨.int 0, .at 30000000000, ⟨0⟩⟩, some .tags⟩

/-- The world after the token has been made, with a timeout of thirty seconds. -/
def made : World Unit := ((Act.newToken (.int 30)).run (.empty ())).2

/-- The world after the first thread has entered. -/
def taken : World Unit := ((Ownership.enter owner token).run made).2

/-- The world after the second thread has entered. -/
def contended : World Unit := ((Ownership.enter wait.thread token).run taken).2

/-- Nobody holds the token yet. -/
def start : Contest Unit := ⟨made, [], [], []⟩

/-- The first thread holds the token and the second one waits. -/
def crowded : Contest Unit := ⟨contended, [block], [wait], [block.session]⟩

theorem starts : Starts token start :=
  ⟨⟨.int 30, ⟨0⟩, ⟨0⟩, rfl, rfl⟩, rfl, rfl, rfl⟩

theorem runs : ∃ ls, Runs token start ls crowded := by
  let s₁ : Contest Unit := ⟨taken, [block], [], [block.session]⟩
  have run₁ : (Ownership.enter owner token).run made = (.ok .opened, taken) := Prod.ext rfl rfl
  have run₂ : (Ownership.enter wait.thread token).run taken =
      (.ok (.waits wait.ticket), contended) := Prod.ext rfl rfl
  have h₁ : Step token start (.enter owner block.event? (.ok .opened)) s₁ := by
    have h := Step.enter (k := token) (s := start) owner block.event? (by simp [start])
    rwa [show start.world = made from rfl, run₁] at h
  have h₂ : Step token s₁ (.enter wait.thread wait.event? (.ok (.waits wait.ticket))) crowded := by
    have h := Step.enter (k := token) (s := s₁) wait.thread wait.event? (by simp [s₁])
    rwa [run₂] at h
  exact ⟨_, ((Runs.refl start).snoc h₁).snoc h₂⟩

end Race

end Contest

end Ownership

end GuardedWalk
