import GuardedWalk.Proofs.Ownership.Token
import GuardedWalk.Proofs.Table.Traffic

/-!
# Turns of threads that call a walker

Where a thread stands is told by how many blocks that hold the token it is inside of, and by whether
it has just been given an outline table or just given the token back. A step of a method is a turn:
it changes where its own thread stands, and leaves all other threads where they are. A method is
sound if each of its steps is a turn, whatever the other threads have done before the step.

## Main definitions

* `GuardedWalk.Phase` — where a thread stands.
* `GuardedWalk.Desk.Standing`, `Phase.Fits` — what the world keeps of the walker and of a thread.
* `GuardedWalk.Desk.Turn` — what a step of a thread does.
* `GuardedWalk.Desk.Serves` — the calls among the methods, and where they leave the thread.
* `GuardedWalk.Desk.Sound` — every step of a program is a turn.

## Main results

* `GuardedWalk.Desk.Turn.fits`, `Turn.fits_other` — what a turn leaves of each thread.
* `GuardedWalk.Desk.Turn.beside` — what foreign code does changes nothing about any thread.
* `GuardedWalk.Desk.Sound.bind` — one routine after another.
-/

set_option autoImplicit false

namespace GuardedWalk

open Ownership (View Shows RunsOn Aside)

variable {ε κ : Type}

/-- Where a thread stands. -/
inductive Phase where
  /-- It is inside of some blocks that hold the token. -/
  | free (blocks : Nat)
  /-- Its observers have all been told of an outline table, which has not been written down yet. It
  is inside of one block at least, and of some more. -/
  | due (more : Nat) (table : Value)
  /-- The same, when it has looked up the session in flight to write the outline table down in. -/
  | aimed (more : Nat) (table : Value) (s : Ref .session)
  /-- The outline table has been written down, but not been asked for its rows yet. -/
  | written (more : Nat) (table : Value)
  /-- It has given the token back, and the session has not been closed yet. -/
  | closing (s : Ref .session)

namespace Phase

/-- How many blocks that hold the token a thread is inside of. -/
def blocks : Phase → Nat
  | free d => d
  | due d _ | aimed d _ _ | written d _ => d + 1
  | closing _ => 0

/-- The outline table that a thread has just been given. -/
def entering : Phase → Option Value
  | due _ table | aimed _ table _ | written _ table => some table
  | free _ | closing _ => none

/-- What the world and its token keep of a thread. -/
structure Fits (n : Nat) (w : World ε) (x : View) (g : Phase) : Prop where
  /-- A thread outside of all blocks does not own the token. -/
  aside : g.blocks = 0 → ∀ r u, x.owner = some (r, u) → u.id ≠ n
  /-- A thread inside of blocks owns the token, which counts them. -/
  holds : 0 < g.blocks → ∃ r u, x.owner = some (r, u) ∧ u.id = n ∧ x.depth = g.blocks
  /-- A session that was looked up is in flight. -/
  aims : ∀ d table r, g = .aimed d table r → ∃ u, x.owner = some (r, u)
  /-- A session that is to be closed is not in flight, nor will it ever be. -/
  ended : ∀ r, g = .closing r →
    r.index < w.sessions.cells.size ∧ w.Unhidden (.session r) ∧ ∀ u, x.owner ≠ some (r, u)

end Phase

/-- The outline table that is written down in a session. -/
def World.tableIn (w : World ε) (r : Ref .session) : Option Value :=
  (w.carried (.session r)).get? Session.tableField

namespace Desk

variable {D : Desk ε κ} {n : Nat} {w w' : World ε} {x x' : View} {g g' : Phase}

/-- The walker has its token, and nothing stands in the way of their methods. -/
structure Standing (D : Desk ε κ) (w : World ε) (x : View) : Prop where
  shows : Shows w D.token x
  condition : x.condition = D.condition
  timeout : x.timeout = D.timeout
  ownership : (w.carried (.walker D.walker)).get? Walker.ownershipField = some (.token D.token)
  keeps : ((w.carried (.token D.token)).get? Token.sessionField).isSome
  walkerOpen : w.Unhidden (.walker D.walker)
  tokenOpen : w.Unhidden (.token D.token)
  flight : ∀ r u, x.owner = some (r, u) → w.Unhidden (.session r)

/-- What a step of one thread leaves to all others. -/
structure Passes (w w' : World ε) : Prop where
  rows : w.tuples.Grows id w'.tuples
  sessions : w.sessions.cells.size ≤ w'.sessions.cells.size
  unhidden : ∀ r : Ref .session, r.index < w.sessions.cells.size → w.Unhidden (.session r) →
    w'.Unhidden (.session r)

/-- The token is held as before, and so is what its session says about outline tables. -/
structure Same (w w' : World ε) (x x' : View) : Prop where
  owner : x'.owner = x.owner
  depth : x'.depth = x.depth
  table : ∀ r u, x.owner = some (r, u) → w'.tableIn r = w.tableIn r

/-- How a thread gets from one phase to another. -/
inductive Changes (D : Desk ε κ) (n : Nat) (w : World ε) (x : View) (w' : World ε) (x' : View) :
    Phase → Phase → Prop where
  /-- It does nothing about the token. -/
  | stays {g : Phase} (h : Same w w' x x') : Changes D n w x w' x' g g
  /-- It takes the idle token and opens a session. -/
  | opens {r : Ref .session} (ho : x.owner = none) (ho' : x'.owner = some (r, D.thread n))
      (hd : x'.depth = 1) (hr : w.sessions.cells.size ≤ r.index)
      (ht : w'.tableIn r = some .none) : Changes D n w x w' x' (.free 0) (.free 1)
  /-- It begins a further block. -/
  | nests {d : Nat} (ho : x'.owner = x.owner) (hd : x'.depth = x.depth + 1)
      (ht : ∀ r u, x.owner = some (r, u) → w'.tableIn r = w.tableIn r) :
    Changes D n w x w' x' (.free (d + 1)) (.free (d + 2))
  /-- It ends a block inside another one. -/
  | ends {d : Nat} (ho : x'.owner = x.owner) (hd : x'.depth = x.depth - 1)
      (ht : ∀ r u, x.owner = some (r, u) → w'.tableIn r = w.tableIn r) :
    Changes D n w x w' x' (.free (d + 2)) (.free (d + 1))
  /-- It gives the token back. -/
  | shuts {r : Ref .session} {u : Thread} (ho : x.owner = some (r, u)) (ho' : x'.owner = none) :
    Changes D n w x w' x' (.free 1) (.closing r)
  /-- It closes a session that is not in flight any more. -/
  | closes {r : Ref .session} (h : Same w w' x x') :
    Changes D n w x w' x' (.closing r) (.free 0)
  /-- It looks up the session in flight. -/
  | aims {d : Nat} {table : Value} {r : Ref .session} {u : Thread} (ho : x.owner = some (r, u))
      (h : Same w w' x x') : Changes D n w x w' x' (.due d table) (.aimed d table r)
  /-- It writes down an outline table in that session. -/
  | writes {d : Nat} {table : Value} {r : Ref .session} (ho' : x'.owner = x.owner)
      (hd : x'.depth = x.depth) (ht : w'.tableIn r = some table) :
    Changes D n w x w' x' (.aimed d table r) (.written d table)

/-- What a thread does after nothing has been done about the token. -/
theorem Changes.since {w₁ : World ε} {x₁ : View} (hc : D.Changes n w₁ x₁ w' x' g g')
    (h : Same w w₁ x x₁) (hsize : w.sessions.cells.size ≤ w₁.sessions.cells.size) :
    D.Changes n w x w' x' g g' := by
  have ht : ∀ {w₂ : World ε}, (∀ r u, x₁.owner = some (r, u) → w₂.tableIn r = w₁.tableIn r) →
      ∀ r u, x.owner = some (r, u) → w₂.tableIn r = w.tableIn r :=
    fun h₂ r u hx => (h₂ r u (h.owner.trans hx)).trans (h.table r u hx)
  cases hc with
  | stays h' => exact .stays ⟨h'.owner.trans h.owner, h'.depth.trans h.depth, ht h'.table⟩
  | opens ho ho' hd hr htable =>
    exact .opens (h.owner.symm.trans ho) ho' hd (Nat.le_trans hsize hr) htable
  | nests ho hd htable => exact .nests (ho.trans h.owner) (by rw [hd, h.depth]) (ht htable)
  | ends ho hd htable => exact .ends (ho.trans h.owner) (by rw [hd, h.depth]) (ht htable)
  | shuts ho ho' => exact .shuts (h.owner.symm.trans ho) ho'
  | closes h' => exact .closes ⟨h'.owner.trans h.owner, h'.depth.trans h.depth, ht h'.table⟩
  | aims ho h' =>
    exact .aims (h.owner.symm.trans ho)
      ⟨h'.owner.trans h.owner, h'.depth.trans h.depth, ht h'.table⟩
  | writes ho' hd htable => exact .writes (ho'.trans h.owner) (hd.trans h.depth) htable

/-- A step of a thread that gets it from one phase to another. -/
structure Turn (D : Desk ε κ) (n : Nat) (w : World ε) (x : View) (g : Phase) (w' : World ε)
    (x' : View) (g' : Phase) : Prop where
  standing : D.Standing w' x'
  passes : Passes w w'
  changes : D.Changes n w x w' x' g g'

/-- What holds of a thread stays as long as the token is held as before. -/
theorem fits_same (hf : g.Fits n w x) (hp : Passes w w')
    (ho : x'.owner = x.owner) (hd : x'.depth = x.depth) : g.Fits n w' x' where
  aside hb := ho ▸ hf.aside hb
  holds hb := by
    rw [ho, hd]
    exact hf.holds hb
  aims d table r hr := ho ▸ hf.aims d table r hr
  ended r hr := by
    obtain ⟨hlt, hun, hne⟩ := hf.ended r hr
    exact ⟨Nat.lt_of_lt_of_le hlt hp.sessions, hp.unhidden r hlt hun, ho ▸ hne⟩

/-- What holds of the thread after its turn. -/
theorem Turn.fits (h : D.Turn n w x g w' x' g') (hs : D.Standing w x) (hf : g.Fits n w x) :
    g'.Fits n w' x' := by
  obtain ⟨-, hpass, hc⟩ := h
  cases hc with
  | stays hsame => exact fits_same hf hpass hsame.owner hsame.depth
  | opens ho ho' hd hr ht =>
    exact ⟨by simp [Phase.blocks], fun _ => ⟨_, _, ho', rfl, by simp [hd, Phase.blocks]⟩, by simp,
      by simp⟩
  | nests ho hd ht | ends ho hd ht =>
    obtain ⟨r, u, hx, hu, hdepth⟩ := hf.holds (by simp [Phase.blocks])
    refine ⟨by simp [Phase.blocks], fun _ => ⟨r, u, ho.trans hx, hu, ?_⟩, by simp, by simp⟩
    simp only [hd, hdepth, Phase.blocks]
    omega
  | @shuts r u ho ho' =>
    refine ⟨by simp [ho'], by simp [Phase.blocks], by simp, fun r' hr' => ?_⟩
    obtain rfl := Phase.closing.inj hr'
    have hlt := (hs.shows.runs r u ho).stored
    exact ⟨Nat.lt_of_lt_of_le hlt hpass.sessions, hpass.unhidden r hlt (hs.flight r u ho),
      by simp [ho']⟩
  | closes hsame =>
    exact ⟨fun _ => hsame.owner ▸ hf.aside rfl, by simp [Phase.blocks], by simp, by simp⟩
  | @aims d table r u ho hsame =>
    refine ⟨by simp [Phase.blocks], fun _ => ?_, fun d' table' r' hr' => ?_, by simp⟩
    · rw [hsame.owner, hsame.depth]
      exact hf.holds (by simp [Phase.blocks])
    · obtain ⟨-, -, rfl⟩ := Phase.aimed.inj hr'
      exact ⟨u, hsame.owner.trans ho⟩
  | writes ho' hd ht =>
    refine ⟨by simp [Phase.blocks], fun _ => ?_, by simp, by simp⟩
    rw [ho', hd]
    exact hf.holds (by simp [Phase.blocks])

/-- What holds of any other thread after a turn. -/
theorem Turn.fits_other {m : Nat} {gm : Phase} (h : D.Turn n w x g w' x' g') (hf : g.Fits n w x)
    (hm : m ≠ n) (hfm : gm.Fits m w x) : gm.Fits m w' x' := by
  obtain ⟨-, hpass, hc⟩ := h
  -- a thread outside of all blocks notices no more than that another one owns the token
  have hout : gm.blocks = 0 → (∀ r u, x'.owner = some (r, u) → u.id ≠ m) →
      (∀ r u, r.index < w.sessions.cells.size → x'.owner = some (r, u) → x.owner = some (r, u)) →
      gm.Fits m w' x' := by
    refine fun hz hne hold => ⟨fun _ => hne, by simp [hz], ?_, fun r hr => ?_⟩
    · rintro d table r rfl
      simp [Phase.blocks] at hz
    · obtain ⟨hlt, hun, hended⟩ := hfm.ended r hr
      exact ⟨Nat.lt_of_lt_of_le hlt hpass.sessions, hpass.unhidden r hlt hun,
        fun u hu => hended u (hold r u hlt hu)⟩
  -- a thread that owns the token keeps all others outside of its blocks
  have hz : (∀ r u, x.owner = some (r, u) → u.id ≠ m) → gm.blocks = 0 := by
    refine fun hne => Nat.eq_zero_of_not_pos fun hpos => ?_
    obtain ⟨r, u, hx, hu, -⟩ := hfm.holds hpos
    exact hne r u hx hu
  have hown : 0 < g.blocks → ∀ r u, x.owner = some (r, u) → u.id ≠ m := by
    intro hb r u hx hu
    obtain ⟨r', u', hx', hu', -⟩ := hf.holds hb
    obtain ⟨-, rfl⟩ := Prod.mk.inj (Option.some.inj (hx.symm.trans hx'))
    exact hm (hu.symm.trans hu')
  cases hc with
  | stays h => exact fits_same hfm hpass h.owner h.depth
  | closes h => exact fits_same hfm hpass h.owner h.depth
  | aims ho h => exact fits_same hfm hpass h.owner h.depth
  | writes ho' hd ht => exact fits_same hfm hpass ho' hd
  | nests ho hd ht | ends ho hd ht =>
    have hne := hown (by simp [Phase.blocks])
    exact hout (hz hne) (ho ▸ hne) fun r u _ hu => ho ▸ hu
  | opens ho ho' hd hr ht =>
    refine hout (hz (by simp [ho])) (fun r u hu => ?_) fun r u hlt hu => ?_
    · obtain ⟨-, rfl⟩ := Prod.mk.inj (Option.some.inj (ho'.symm.trans hu))
      exact fun h => hm h.symm
    · obtain ⟨rfl, -⟩ := Prod.mk.inj (Option.some.inj (ho'.symm.trans hu))
      omega
  | shuts ho ho' => exact hout (hz (hown (by simp [Phase.blocks]))) (by simp [ho']) (by simp [ho'])

/-! ## What foreign code leaves -/

theorem Beside.ownValue (h : D.Beside w w') {name : String} (hn : name ∉ Node.marks) :
    w'.ownValue (.token D.token) name = w.ownValue (.token D.token) name := by
  rw [World.ownValue_eq, World.ownValue_eq, Attributes.value, Attributes.value, h.token name hn]

/-- Foreign code may wake threads, and changes nothing else about the token. -/
theorem Standing.beside (hs : D.Standing w x) (h : D.Beside w w') :
    D.Standing w' { x with asleep := (w'.conditions.get x.condition).asleep } := by
  obtain ⟨copy, hc⟩ := hs.shows.condition
  have hflight : ∀ r u, x.owner = some (r, u) → ∀ name ∉ Node.marks,
      (w'.carried (.session r)).get? name = (w.carried (.session r)).get? name := by
    intro r u hx
    exact h.session r (hs.shows.session.trans (by rw [hx]; rfl))
  exact
    { shows :=
        { session := (h.ownValue (by decide)).trans hs.shows.session
          depth := (h.ownValue (by decide)).trans hs.shows.depth
          generation := (h.ownValue (by decide)).trans hs.shows.generation
          waiting := (h.ownValue (by decide)).trans hs.shows.waiting
          condition := ⟨copy, (h.ownValue (by decide)).trans hc⟩
          asleep := rfl
          timeout := (h.ownValue (by decide)).trans hs.shows.timeout
          runs := fun r u hx => by
            obtain ⟨hnumber, hname, hstored⟩ := hs.shows.runs r u hx
            exact ⟨(hflight r u hx _ (by decide)).trans hnumber,
              (hflight r u hx _ (by decide)).trans hname,
              Nat.lt_of_lt_of_le hstored h.sessions⟩ }
      condition := hs.condition
      timeout := hs.timeout
      ownership := (h.walker _ (by decide)).trans hs.ownership
      keeps := by
        rw [h.token _ (by decide)]
        exact hs.keeps
      walkerOpen := World.unhidden_of_carried h.walker hs.walkerOpen
      tokenOpen := World.unhidden_of_carried h.token hs.tokenOpen
      flight := fun r u hx => World.unhidden_of_carried (hflight r u hx) (hs.flight r u hx) }

/-- What foreign code does is a turn of any thread, which stays where it is. -/
theorem Turn.beside (hs : D.Standing w x) (h : D.Beside w w') :
    D.Turn n w x g w' { x with asleep := (w'.conditions.get x.condition).asleep } g where
  standing := hs.beside h
  passes := ⟨h.rows, h.sessions, h.unhidden⟩
  changes := .stays ⟨rfl, rfl, fun r u hx =>
    h.session r (hs.shows.session.trans (by rw [hx]; rfl)) _ (by decide)⟩

/-! ## Calls -/

/-- What a walker does between the notifications of an event; none if there is nothing. -/
def blockOf (D : Desk ε κ) (e : Event) (row : Ref .tuple) : Value :=
  if e.isComposite then .block D.walker e row else .none

/-- A call that leaves the thread inside of as many blocks as before, whatever it comes to. -/
def leaves (d : Nat) (g : Phase) (_ : Outcome) : Prop := g = .free d

/-- A call that begins a block, unless it fails. -/
def begins (d : Nat) (g : Phase) : Outcome → Prop
  | .ok _ => g = .free (d + 1)
  | .error _ => g = .free d

/-- The calls that methods make of one another, with the phase in which they do and what holds of
the phase afterwards; `since` is a world of the past, for what is known about rows. -/
inductive Serves (D : Desk ε κ) (since : World ε) :
    Call κ → Phase → (Phase → Outcome → Prop) → Prop where
  | entry (d : Nat) (e : Event) (args : List Value) :
    Serves D since (.send (.walker D.walker) (.entry e) args) (.free d) (leaves d)
  | cancel (d : Nat) (args : List Value) :
    Serves D since (.send (.walker D.walker) .cancel args) (.free d) (leaves d)
  | visit (d : Nat) (e : Event) {row : Ref .tuple} {rest : List Value}
      (hrow : row.index < since.tuples.cells.size) (hb : rest.headD .none = D.blockOf e row) :
    Serves D since (.send (.walker D.walker) .visit (.event e :: .tuple row :: rest)) (.free d)
      (leaves d)
  | broadcast (d : Nat) (e : Event) {row : Ref .tuple} {rest : List Value}
      (hrow : row.index < since.tuples.cells.size) (hb : rest.headD .none = D.blockOf e row)
      (hd : e = .outlineTable → 0 < d) :
    Serves D since (.send (.walker D.walker) .broadcast (.event e :: .tuple row :: rest))
      (.free d) (leaves d)
  | hold (d : Nat) :
    Serves D since (.send (.token D.token) .hold []) (.free d)
      fun g o => g = .free d ∧ o = .ok (.holding D.token)
  | acquire (d : Nat) : Serves D since (.send (.token D.token) .acquire []) (.free d) (begins d)
  | await (g : Int) (limit : Limit) (ht : ∃ number, D.timeout.number? = some number) :
    Serves D since (.await D.token ⟨.int g, limit, D.condition⟩) (.free 0) (begins 0)
  | release (d : Nat) :
    Serves D since (.send (.token D.token) .release []) (.free (d + 1)) (leaves d)
  | close (r : Ref .session) : Serves D since (.send (.session r) .close []) (.closing r) (leaves 0)
  | cancelToken (d : Nat) : Serves D since (.send (.token D.token) .cancel []) (.free d) (leaves d)
  | block (d : Nat) {e : Event} {row : Ref .tuple} (hrow : row.index < since.tuples.cells.size)
      (he : e ≠ .outlineTable) :
    Serves D since (.apply (.block D.walker e row) []) (.free d) (leaves d)
  | table (d : Nat) {row : Ref .tuple} {table : Value}
      (hrow : row.index < since.tuples.cells.size) (ht : (since.row row).headD .none = table) :
    Serves D since (.apply (.block D.walker .outlineTable row) []) (.due d table) (leaves (d + 1))

/-- What methods ask of foreign code, with the phase in which they do and the number of blocks
meanwhile. -/
inductive Asks (D : Desk ε κ) : Phase → Call κ → Nat → Prop where
  /-- All observers are told of an outline table inside of a block only. -/
  | free {c : Call κ} {d : Nat} (h : (c.tableTold? (.ok .none)).isSome → 0 < d) :
    Asks D (.free d) c d
  /-- An outline table that has been written down is asked for its rows. -/
  | rows {d : Nat} {table : Value} :
    Asks D (.written d table) (.send table .accept [.walker D.walker]) (d + 1)

/-- Where a thread stands after foreign code has answered it. -/
def after (d : Nat) (c : Call κ) (o : Outcome) : Phase :=
  match c.tableTold? o with
  | some table => .due (d - 1) table
  | none => .free d

/-! ## Programs -/

/-- Every step of a program is a turn of its thread, all its calls are among those that methods
make, it does not wait when it has just been given an outline table, and at its end something
holds. -/
def Sound {α : Type} (D : Desk ε κ) (n : Nat) (Q : World ε → Phase → α → Prop) :
    Program ε (Call κ) α → World ε → Phase → Prop
  | .done a, since, g => ∀ w, since.tuples.Grows id w.tuples → Q w g a
  | .step change next, since, g =>
    ∀ w x, since.tuples.Grows id w.tuples → D.Standing w x → g.Fits n w x →
      ∃ x' g', D.Turn n w x g (change w).2 x' g' ∧
        Sound D n Q (next (change w).1) (change w).2 g'
  | .call c next, since, g =>
    if D.answers c then ∃ P, D.Serves since c g P ∧ ∀ g' o, P g' o → Sound D n Q (next o) since g'
    else ∃ d, D.Asks g c d ∧ ∀ o, Sound D n Q (next o) since (after d c o)
  | .wait _ _ next, since, g => g.entering = none ∧ ∀ held, Sound D n Q (next held) since g
  | .start .., _, _ => False

section Sound

variable {α β : Type} {since : World ε}

/-- Every step of a routine is a turn. -/
abbrev SoundRoutine (D : Desk ε κ) (n : Nat) (p : Routine ε (Call κ) α) (since : World ε)
    (g : Phase) (Q : World ε → Phase → Except Failure α → Prop) : Prop :=
  @Sound ε κ (Except Failure α) D n Q p since g

theorem Sound.mono {p : Program ε (Call κ) α} {Q Q' : World ε → Phase → α → Prop}
    (h : D.Sound n Q p since g) (hQ : ∀ w g a, Q w g a → Q' w g a) : D.Sound n Q' p since g := by
  induction p generalizing since g with
  | done a => exact fun w hw => hQ w g a (h w hw)
  | step change next ih =>
    intro w x hw hs hf
    obtain ⟨x', g', ht, hn⟩ := h w x hw hs hf
    exact ⟨x', g', ht, ih _ hn⟩
  | call c next ih =>
    simp only [Sound] at h ⊢
    split
    · rename_i hc
      rw [if_pos hc] at h
      obtain ⟨P, hP, hn⟩ := h
      exact ⟨P, hP, fun g' o ho => ih o (hn g' o ho)⟩
    · rename_i hc
      rw [if_neg hc] at h
      obtain ⟨d, hd, hn⟩ := h
      exact ⟨d, hd, fun o => ih o (hn o)⟩
  | wait ready until? next ih => exact ⟨h.1, fun held => ih held (h.2 held)⟩
  | start t c next ih => exact h

/-- One program after another. -/
theorem Sound.then {p : Program ε (Call κ) α} {f : α → Program ε (Call κ) β}
    {Q : World ε → Phase → β → Prop}
    (h : D.Sound n (fun w g' a => D.Sound n Q (f a) w g') p since g) :
    D.Sound n Q (p.bind f) since g := by
  induction p generalizing since g with
  | done a => exact h since (.refl _ _)
  | step change next ih =>
    intro w x hw hs hf
    obtain ⟨x', g', ht, hn⟩ := h w x hw hs hf
    exact ⟨x', g', ht, ih _ hn⟩
  | call c next ih =>
    simp only [Sound, Program.bind] at h ⊢
    split
    · rename_i hc
      rw [if_pos hc] at h
      obtain ⟨P, hP, hn⟩ := h
      exact ⟨P, hP, fun g' o ho => ih o (hn g' o ho)⟩
    · rename_i hc
      rw [if_neg hc] at h
      obtain ⟨d, hd, hn⟩ := h
      exact ⟨d, hd, fun o => ih o (hn o)⟩
  | wait ready until? next ih => exact ⟨h.1, fun held => ih held (h.2 held)⟩
  | start t c next ih => exact h

/-- One routine after another: a failure of the first one ends both. -/
theorem Sound.bind {p : Routine ε (Call κ) α} {f : α → Routine ε (Call κ) β}
    {Q : World ε → Phase → Except Failure β → Prop}
    (h : D.SoundRoutine n p since g fun w g' r =>
      match r with
      | .ok a => D.SoundRoutine n (f a) w g' Q
      | .error e => ∀ w', w.tuples.Grows id w'.tuples → Q w' g' (.error e)) :
    D.SoundRoutine n (p >>= f) since g Q := by
  refine Sound.then (f := fun r => ExceptT.bindCont f r) (Sound.mono h fun w g' r hr => ?_)
  cases r with
  | ok a => exact hr
  | error e => exact hr

/-- The result or the failure of a routine, as a result. -/
theorem Sound.outcome {p : Routine ε (Call κ) α}
    {Q : World ε → Phase → Except Failure (Except Failure α) → Prop}
    (h : D.SoundRoutine n p since g fun w g' r => ∀ w', w.tuples.Grows id w'.tuples →
      Q w' g' (.ok r)) : D.SoundRoutine n (Routine.outcome p) since g Q :=
  Sound.then (Sound.mono h fun _ _ _ hr => hr)

theorem Sound.pure {a : α} {Q : World ε → Phase → Except Failure α → Prop}
    (h : ∀ w, since.tuples.Grows id w.tuples → Q w g (.ok a)) :
    D.SoundRoutine n (Pure.pure a) since g Q := h

theorem Sound.throw {e : Failure} {Q : World ε → Phase → Except Failure α → Prop}
    (h : ∀ w, since.tuples.Grows id w.tuples → Q w g (.error e)) :
    D.SoundRoutine n (MonadExcept.throw e) since g Q := h

/-- A step of a routine. -/
theorem Sound.atomically {f : World ε → Except Failure α × World ε}
    {Q : World ε → Phase → Except Failure α → Prop}
    (h : ∀ w x, since.tuples.Grows id w.tuples → D.Standing w x → g.Fits n w x →
      ∃ x' g', D.Turn n w x g (f w).2 x' g' ∧
        ∀ w', (f w).2.tuples.Grows id w'.tuples → Q w' g' (f w).1) :
    D.SoundRoutine n (Routine.atomically f) since g Q := h

/-- A call of another method. -/
theorem Sound.invoke {c : Call κ} {P : Phase → Outcome → Prop}
    {Q : World ε → Phase → Outcome → Prop} (hc : D.answers c = true)
    (hP : D.Serves since c g P)
    (h : ∀ g' o, P g' o → ∀ w, since.tuples.Grows id w.tuples → Q w g' o) :
    D.SoundRoutine n (Routine.invoke c) since g Q := by
  show D.Sound n Q (.call c fun o => .done o) since g
  simp only [Sound, if_pos hc]
  exact ⟨P, hP, h⟩

/-- Foreign code is asked. -/
theorem Sound.ask {c : Call κ} {d : Nat} {Q : World ε → Phase → Outcome → Prop}
    (hc : D.answers c = false) (hd : D.Asks g c d)
    (h : ∀ o w, since.tuples.Grows id w.tuples → Q w (after d c o) o) :
    D.SoundRoutine n (Routine.invoke c) since g Q := by
  show D.Sound n Q (.call c fun o => .done o) since g
  simp only [Sound, hc, Bool.false_eq_true, if_false]
  exact ⟨d, hd, h⟩

end Sound

end Desk

end GuardedWalk
