import GuardedWalk.Proofs.Table.Methods

/-!
# Which outline table a walker shows

Whatever nodes and observers do, on any threads and in any order, a walker shows the outline table
of the visit whose observers were all told of it last in the session in flight, whether that visit
goes on, has returned or has failed. It shows none if there was no such visit in the session, nor
while it is idle. Nothing else changes what it shows, and a table is always written down in a
session of the thread that visits it.

## Main definitions

* `GuardedWalk.Desk.Stacked`, `Follows` — what a thread goes back to fits where it stands.
* `GuardedWalk.Desk.Orderly` — what holds throughout.
* `GuardedWalk.Desk.Lawful` — which outline table is shown, and how that changes.

## Main results

* `GuardedWalk.Desk.Orderly.step` — every step of any thread keeps what holds throughout.
* `GuardedWalk.Desk.current_table_law` — so the law holds at every point of every run.
-/

set_option autoImplicit false

namespace GuardedWalk

open Ownership (View Shows RunsOn)

variable {ε κ : Type}

namespace Phase

/-- The outline tables that have been written down, among those that all observers have heard of. -/
def writtenOf (told : List (Value × Value)) : Phase → List (Value × Value)
  | due .. | aimed .. => told.tail
  | free _ | written .. | closing _ => told

end Phase

namespace Desk

variable {D : Desk ε κ} {n : Nat} {w w' : World ε} {x x' : View} {g g' : Phase}
  {s s' : Traffic ε κ} {γ : Nat → Phase}

/-! ## Threads -/

/-- What a thread expects of what it goes back to. -/
inductive Expectation where
  /-- A method ends with a result, in some phase. -/
  | result (P : Phase → Outcome → Prop)
  /-- Foreign code runs, inside of some blocks. -/
  | answer (blocks : Nat)

/-- What a thread goes back to fits where it stands. -/
inductive Stacked (D : Desk ε κ) (n : Nat) (w : World ε) :
    Expectation → List (Pending ε κ) → Prop where
  | empty : Stacked D n w (.answer 0) []
  | method {since : World ε} {next : Outcome → Program ε (Call κ) Outcome}
      {rest : List (Pending ε κ)} {P Q : Phase → Outcome → Prop}
      (hw : since.tuples.Grows id w.tuples)
      (h : ∀ g o, P g o → D.Sound n (fun _ g' o' => Q g' o') (next o) since g)
      (hr : Stacked D n w (.result Q) rest) : Stacked D n w (.result P) (.method next :: rest)
  | called {d : Nat} {rest : List (Pending ε κ)} {P : Phase → Outcome → Prop}
      (h : ∀ g o, P g o → g = .free d) (hr : Stacked D n w (.answer d) rest) :
    Stacked D n w (.result P) (.called :: rest)
  | asked {since : World ε} {c : Call κ} {next : Outcome → Program ε (Call κ) Outcome}
      {rest : List (Pending ε κ)} {d : Nat} {Q : Phase → Outcome → Prop}
      (hw : since.tuples.Grows id w.tuples) (hd : (c.tableTold? (.ok .none)).isSome → 0 < d)
      (h : ∀ o, D.Sound n (fun _ g' o' => Q g' o') (next o) since (after d c o))
      (hr : Stacked D n w (.result Q) rest) : Stacked D n w (.answer d) (.asked c next :: rest)

/-- What a thread goes back to does not depend on the world, apart from the rows that there are. -/
theorem Stacked.grows {e : Expectation} {stack : List (Pending ε κ)} (h : D.Stacked n w e stack)
    (hw : w.tuples.Grows id w'.tuples) : D.Stacked n w' e stack := by
  induction h with
  | empty => exact .empty
  | method hw₀ h _ ih => exact .method (hw₀.trans hw) h ih
  | called h _ ih => exact .called h ih
  | asked hw₀ hd h _ ih => exact .asked (hw₀.trans hw) hd h ih

/-- What a thread is in the middle of fits where it stands. -/
def Follows (D : Desk ε κ) (n : Nat) (w : World ε) (g : Phase) (c : Caller ε κ) : Prop :=
  c.entering = g.entering ∧
    match c.now with
    | none => ∃ d, g = .free d ∧ D.Stacked n w (.answer d) c.stack
    | some p => ∃ P since, since.tuples.Grows id w.tuples ∧
        D.Sound n (fun _ g' o => P g' o) p since g ∧ D.Stacked n w (.result P) c.stack

/-- While foreign code runs on a thread, the thread is inside of some blocks and of nothing else. -/
theorem Follows.outside {c : Caller ε κ} (h : D.Follows n w g c) (hn : c.now = none) :
    ∃ d, g = .free d ∧ D.Stacked n w (.answer d) c.stack := by
  have h := h.2
  rw [hn] at h
  exact h

/-- The method that runs on a thread is sound from where the thread stands. -/
theorem Follows.inside {c : Caller ε κ} {p : Program ε (Call κ) Outcome} (h : D.Follows n w g c)
    (hn : c.now = some p) : ∃ P since, since.tuples.Grows id w.tuples ∧
      D.Sound n (fun _ g' o => P g' o) p since g ∧ D.Stacked n w (.result P) c.stack := by
  have h := h.2
  rw [hn] at h
  exact h

theorem Follows.grows {c : Caller ε κ} (h : D.Follows n w g c)
    (hw : w.tuples.Grows id w'.tuples) : D.Follows n w' g c := by
  obtain ⟨he, h⟩ := h
  refine ⟨he, ?_⟩
  cases hn : c.now with
  | none =>
    rw [hn] at h
    obtain ⟨d, hd, hstack⟩ := h
    exact ⟨d, hd, hstack.grows hw⟩
  | some p =>
    rw [hn] at h
    obtain ⟨P, since, hsince, hp, hstack⟩ := h
    exact ⟨P, since, hsince.trans hw, hp, hstack.grows hw⟩

/-! ## What holds throughout -/

/-- What holds throughout, where each thread stands in some phase. -/
structure Orderly (D : Desk ε κ) (s : Traffic ε κ) (x : View) (γ : Nat → Phase) : Prop where
  standing : D.Standing s.world x
  fits : ∀ n, (γ n).Fits n s.world x
  follows : ∀ n, D.Follows n s.world (γ n) (s.callers n)
  /-- The session in flight keeps the outline table that was written down last in it. -/
  table : ∀ r u, x.owner = some (r, u) → s.world.tableIn r =
    some (Traffic.latest ((γ u.id).writtenOf s.told) (.session r))
  /-- A thread that has just been given an outline table owns the token. -/
  entering : ∀ n table, (γ n).entering = some table → ∃ r u earlier,
    x.owner = some (r, u) ∧ s.told = (.session r, table) :: earlier
  /-- All sessions that outline tables were told in are there. -/
  told : ∀ p ∈ s.told, ∃ r : Ref .session, p.1 = .session r ∧
    r.index < s.world.sessions.cells.size

/-- Another phase of one thread. -/
def moved (γ : Nat → Phase) (n : Nat) (g : Phase) : Nat → Phase := fun m => if m = n then g else γ m

@[simp] theorem moved_self (γ : Nat → Phase) (n : Nat) (g : Phase) : moved γ n g n = g := by
  simp [moved]

theorem moved_of_ne (γ : Nat → Phase) {n m : Nat} (g : Phase) (h : m ≠ n) :
    moved γ n g m = γ m := by
  simp [moved, h]

/-- What holds of the thread that has moved on, and of all others as before, holds of each. -/
theorem forall_moved {P : Nat → Phase → Prop} {g : Phase} (hself : P n g)
    (hothers : ∀ m, m ≠ n → P m (γ m)) (m : Nat) : P m (moved γ n g m) := by
  by_cases hm : m = n
  · subst hm
    rw [moved_self]
    exact hself
  · rw [moved_of_ne γ g hm]
    exact hothers m hm

/-- A thread that has just been given an outline table is inside of a block. -/
theorem blocks_pos {g : Phase} {table : Value} (h : g.entering = some table) :
    0 < g.blocks := by
  cases g <;> simp [Phase.entering, Phase.blocks] at *

/-- No two threads are inside of blocks. -/
theorem Orderly.alone (h : D.Orderly s x γ) {m : Nat} (hn : 0 < (γ n).blocks)
    (hm : 0 < (γ m).blocks) : m = n := by
  obtain ⟨r, u, hx, hu, -⟩ := (h.fits n).holds hn
  obtain ⟨r', u', hx', hu', -⟩ := (h.fits m).holds hm
  obtain ⟨-, rfl⟩ := Prod.mk.inj (Option.some.inj (hx.symm.trans hx'))
  exact hu'.symm.trans hu

/-- A thread that has just been given an outline table is the one that owns the token. -/
theorem Orderly.owns (h : D.Orderly s x γ) {table : Value} (he : (γ n).entering = some table) :
    ∃ r u earlier, x.owner = some (r, u) ∧ u.id = n ∧ s.told = (.session r, table) :: earlier := by
  obtain ⟨r, u, earlier, hx, htold⟩ := h.entering n table he
  obtain ⟨r', u', hx', hu, -⟩ := (h.fits n).holds (blocks_pos he)
  obtain ⟨rfl, rfl⟩ := Prod.mk.inj (Option.some.inj (hx.symm.trans hx'))
  exact ⟨r, u, earlier, hx, hu, htold⟩

/-- No outline table was told of in a session that is not there yet. -/
theorem Orderly.fresh (h : D.Orderly s x γ) {r : Ref .session}
    (hr : s.world.sessions.cells.size ≤ r.index) : ∀ p ∈ s.told, p.1 ≠ .session r := by
  intro p hp hpr
  obtain ⟨r', hr', hlt⟩ := h.told p hp
  obtain rfl := Value.session.inj (hr'.symm.trans hpr)
  exact absurd hlt (Nat.not_lt.2 hr)

theorem latest_of_untold {told : List (Value × Value)} {session : Value}
    (h : ∀ p ∈ told, p.1 ≠ session) : Traffic.latest told session = .none := by
  have hfind : told.find? (fun p => decide (p.1 = session)) = none := by
    rw [List.find?_eq_none]
    intro p hp
    simpa using h p hp
  simp [Traffic.latest, hfind]

theorem latest_cons (session table : Value) (told : List (Value × Value)) :
    Traffic.latest ((session, table) :: told) session = table := by
  simp [Traffic.latest]

/-- How the owner of the token changes in a turn. -/
theorem Changes.owner (h : D.Changes n w x w' x' g g') :
    x'.owner = x.owner ∨ x.owner = none ∨
      x'.owner = none ∧ g.entering = none ∧ 0 < g.blocks := by
  cases h with
  | stays h => exact .inl h.owner
  | opens ho ho' => exact .inr (.inl ho)
  | nests ho => exact .inl ho
  | ends ho => exact .inl ho
  | shuts ho ho' => exact .inr (.inr ⟨ho', rfl, Nat.one_pos⟩)
  | closes h => exact .inl h.owner
  | aims ho h => exact .inl h.owner
  | writes ho' => exact .inl ho'

/-- What a turn does about the session that is in flight after it: it keeps what the session says
about outline tables, or opens it, or writes an outline table down in it. -/
theorem Changes.flight (h : D.Changes n w x w' x' g g') (hf : g.Fits n w x) {r : Ref .session}
    {u : Thread} (hr : x'.owner = some (r, u)) :
    x.owner = some (r, u) ∧ w'.tableIn r = w.tableIn r ∧
        (∀ told, g'.writtenOf told = g.writtenOf told) ∨
      x.owner = none ∧ w.sessions.cells.size ≤ r.index ∧ w'.tableIn r = some .none ∧
        u.id = n ∧ g' = .free 1 ∨
      x.owner = some (r, u) ∧
        ∃ d table, g = .aimed d table r ∧ g' = .written d table ∧ w'.tableIn r = some table := by
  have hkept : x'.owner = x.owner → (∀ r u, x.owner = some (r, u) → w'.tableIn r = w.tableIn r) →
      x.owner = some (r, u) ∧ w'.tableIn r = w.tableIn r :=
    fun ho htable => ⟨ho ▸ hr, htable r u (ho ▸ hr)⟩
  cases h with
  | stays h | closes h | aims ho h =>
    obtain ⟨hx, htable⟩ := hkept h.owner h.table
    exact .inl ⟨hx, htable, fun _ => rfl⟩
  | nests ho hd ht | ends ho hd ht =>
    obtain ⟨hx, htable⟩ := hkept ho ht
    exact .inl ⟨hx, htable, fun _ => rfl⟩
  | shuts ho ho' => simp [ho'] at hr
  | opens ho ho' hd hlt htable =>
    obtain ⟨rfl, rfl⟩ := Prod.mk.inj (Option.some.inj (ho'.symm.trans hr))
    exact .inr (.inl ⟨ho, hlt, htable, rfl, rfl⟩)
  | @writes d table r₀ ho' hd htable =>
    -- the thread writes where it has looked up the session, which is still the one in flight
    obtain ⟨u₀, hx⟩ := hf.aims d table r₀ rfl
    obtain ⟨rfl, rfl⟩ := Prod.mk.inj (Option.some.inj (hx.symm.trans (ho' ▸ hr)))
    exact .inr (.inr ⟨hx, d, table, rfl, rfl, htable⟩)

/-- What a thread has just been given stays in a turn. -/
theorem Changes.entering (h : D.Changes n w x w' x' g g') : g'.entering = g.entering := by
  cases h <;> rfl

/-- After a turn, the session in flight keeps the outline table that was written down last in it. -/
theorem Orderly.table_of_turn (h : D.Orderly s x γ) (ht : D.Turn n s.world x (γ n) w' x' g')
    {r : Ref .session} {u : Thread} (hr : x'.owner = some (r, u)) :
    w'.tableIn r =
      some (Traffic.latest ((moved γ n g' u.id).writtenOf s.told) (.session r)) := by
  rcases ht.changes.flight (h.fits n) hr with ⟨hx, htable, hwritten⟩ |
    ⟨-, hsize, htable, hu, hg'⟩ | ⟨hx, d, table, hg, hg', htable⟩
  · rw [htable, h.table r u hx]
    exact forall_moved (P := fun m g => some (Traffic.latest ((γ m).writtenOf s.told) _) =
      some (Traffic.latest (g.writtenOf s.told) _)) (by rw [hwritten]) (fun _ _ => rfl) u.id
  · rw [htable, hu, moved_self, hg', Phase.writtenOf, latest_of_untold (h.fresh hsize)]
  · -- the table that is written down is the one that was told of last
    obtain ⟨r', u', earlier, hx', hu, htold⟩ :=
      h.owns (n := n) (show _ = some table by rw [hg]; rfl)
    obtain ⟨rfl, rfl⟩ := Prod.mk.inj (Option.some.inj (hx'.symm.trans hx))
    rw [htable, hu, moved_self, hg', Phase.writtenOf, htold, latest_cons]

/-- After a turn, a thread that has just been given an outline table still owns the token. The turn
of another thread does not take it away, since that thread is outside of all blocks. -/
theorem Orderly.entering_of_turn (h : D.Orderly s x γ) (ht : D.Turn n s.world x (γ n) w' x' g')
    {m : Nat} {table : Value} (hm : (moved γ n g' m).entering = some table) :
    ∃ r u earlier, x'.owner = some (r, u) ∧ s.told = (.session r, table) :: earlier := by
  have hbefore : (γ m).entering = some table := by
    rw [← hm]
    exact forall_moved (P := fun m g => (γ m).entering = g.entering) ht.changes.entering.symm
      (fun _ _ => rfl) m
  obtain ⟨r, u, earlier, hx, htold⟩ := h.entering m table hbefore
  refine ⟨r, u, earlier, ?_, htold⟩
  rcases ht.changes.owner with ho | hnone | ⟨-, hnone, hpos⟩
  · exact ho.trans hx
  · simp [hnone] at hx
  · rw [h.alone hpos (blocks_pos hbefore), hnone] at hbefore
    cases hbefore

/-- A turn of one thread keeps what holds throughout. -/
theorem Orderly.turn (h : D.Orderly s x γ) {c : Caller ε κ}
    (ht : D.Turn n s.world x (γ n) w' x' g') (hc : D.Follows n w' g' c) :
    D.Orderly { s.put n c with world := w' } x' (moved γ n g') where
  standing := ht.standing
  fits := forall_moved (P := fun m g => g.Fits m w' x') (ht.fits h.standing (h.fits n))
    fun m hm => ht.fits_other (h.fits n) hm (h.fits m)
  follows := forall_moved (P := fun m g => D.Follows m w' g ((s.put n c).callers m))
    (by simpa using hc) fun m hm => by
      rw [Traffic.put_callers_of_ne s c hm]
      exact (h.follows m).grows ht.passes.rows
  table _ _ hr := h.table_of_turn ht hr
  entering _ _ hm := h.entering_of_turn ht hm
  told p hp := by
    obtain ⟨r, hr, hlt⟩ := h.told p hp
    exact ⟨r, hr, Nat.lt_of_lt_of_le hlt ht.passes.sessions⟩

/-- Where a thread stands may be told anew, as long as nothing shows in the token. -/
theorem Orderly.control (h : D.Orderly s x γ) {c : Caller ε κ}
    (hf : g'.Fits n s.world x) (hw : g'.writtenOf s.told = (γ n).writtenOf s.told)
    (he : ∀ table, g'.entering = some table → (γ n).entering = some table)
    (hc : D.Follows n s.world g' c) : D.Orderly (s.put n c) x (moved γ n g') where
  standing := h.standing
  fits := forall_moved (P := fun m g => g.Fits m s.world x) hf fun m _ => h.fits m
  follows := forall_moved (P := fun m g => D.Follows m s.world g ((s.put n c).callers m))
    (by simpa using hc) fun m hm => by
      rw [Traffic.put_callers_of_ne s c hm]
      exact h.follows m
  table r u hr := by
    rw [Traffic.put_world, Traffic.put_told, h.table r u hr]
    exact forall_moved (P := fun m g => some (Traffic.latest ((γ m).writtenOf s.told) _) =
      some (Traffic.latest (g.writtenOf s.told) _)) (by rw [hw]) (fun _ _ => rfl) u.id
  entering m table hm := h.entering m table
    (forall_moved (P := fun m g => g.entering = some table → (γ m).entering = some table)
      (he table) (fun _ _ ht => ht) m hm)
  told := h.told

/-- A thread that goes on in the phase in which it is. -/
theorem Orderly.goes (h : D.Orderly s x γ) {c : Caller ε κ} (hc : D.Follows n s.world (γ n) c) :
    D.Orderly (s.put n c) x (moved γ n (γ n)) :=
  h.control (h.fits n) rfl (fun _ ht => ht) hc

theorem tableTold?_ok {c : Call κ} {o : Outcome} {table : Value} (h : c.tableTold? o = some table) :
    (c.tableTold? (.ok .none)).isSome := by
  unfold Call.tableTold? at h ⊢
  split at h
  · rfl
  · cases h

/-- All observers of a thread that is inside of some block have been told of an outline table. It
becomes the one that was told of last in the session in flight, and the only one that is not
written down yet. -/
theorem Orderly.tells (h : D.Orderly s x γ) {d : Nat} (hg : γ n = .free (d + 1)) {c : Caller ε κ}
    {table : Value} (hc : D.Follows n s.world (.due d table) c) :
    D.Orderly { s.put n c with told := (s.session D.token, table) :: s.told } x
      (moved γ n (.due d table)) := by
  have hpos : 0 < (γ n).blocks := by rw [hg]; exact Nat.succ_pos d
  obtain ⟨r, u, hx, hu, hdepth⟩ := (h.fits n).holds hpos
  have hsession : s.session D.token = .session r :=
    h.standing.shows.session.trans (by rw [hx]; rfl)
  rw [hsession]
  refine
    { standing := h.standing
      fits := forall_moved (P := fun m g => g.Fits m s.world x)
        ⟨by simp [Phase.blocks], fun _ => ⟨r, u, hx, hu, hdepth.trans (by rw [hg]; rfl)⟩, by simp,
          by simp⟩
        fun m _ => h.fits m
      follows := forall_moved (P := fun m g => D.Follows m s.world g ((s.put n c).callers m))
        (by simpa using hc) fun m hm => by
          rw [Traffic.put_callers_of_ne s c hm]
          exact h.follows m
      table := fun r' u' hr' => ?_
      entering := forall_moved (P := fun _ g => ∀ table', g.entering = some table' → ∃ r' u' earlier,
          x.owner = some (r', u') ∧
            (Value.session r, table) :: s.told = (Value.session r', table') :: earlier)
        (fun table' hm => ?_) fun m hm table' ht => ?_
      told := fun p hp => ?_ }
  · obtain ⟨rfl, rfl⟩ := Prod.mk.inj (Option.some.inj (hx.symm.trans hr'))
    have htable := h.table r u hx
    rw [hu, hg] at htable
    rw [hu, moved_self]
    exact htable
  · obtain rfl := Option.some.inj hm
    exact ⟨r, u, s.told, hx, rfl⟩
  · exact absurd (h.alone hpos (blocks_pos ht)) hm
  · rcases List.mem_cons.1 hp with rfl | hp
    · exact ⟨r, rfl, (h.standing.shows.runs r u hx).stored⟩
    · exact h.told p hp

/-- An answer of foreign code keeps what holds throughout. -/
theorem Orderly.answered (h : D.Orderly s x γ) {c : Call κ}
    {next : Outcome → Program ε (Call κ) Outcome} {rest : List (Pending ε κ)}
    (hn : (s.callers n).now = none) (hs : (s.callers n).stack = .asked c next :: rest)
    (o : Outcome) : ∃ g', D.Orderly (D.answered s n c next rest o) x (moved γ n g') := by
  obtain ⟨d, hg, hstack⟩ := (h.follows n).outside hn
  rw [hs] at hstack
  cases hstack with
  | @asked since _ _ _ _ Q hw hd hp hr =>
  have hp := hp o
  cases ht : c.tableTold? o with
  | none =>
    have hafter : after d c o = .free d := by simp [after, ht]
    have hnext : D.answered s n c next rest o = s.put n ⟨some (next o), rest, none⟩ := by
      unfold Desk.answered
      rw [ht]
      rfl
    rw [hafter] at hp
    rw [hnext]
    exact ⟨.free d, h.control (hg ▸ h.fits n) (by rw [hg]) (by simp [Phase.entering])
      ⟨rfl, fun g' o' => Q g' o', since, hw, hp, hr⟩⟩
  | some table =>
    obtain ⟨d, rfl⟩ := Nat.exists_eq_succ_of_ne_zero (Nat.ne_of_gt (hd (tableTold?_ok ht)))
    have hafter : after (d + 1) c o = .due d table := by simp [after, ht]
    have hnext : D.answered s n c next rest o =
        { s.put n ⟨some (next o), rest, some table⟩ with
          told := (s.session D.token, table) :: s.told } := by
      unfold Desk.answered
      rw [ht]
      rfl
    rw [hafter] at hp
    rw [hnext]
    exact ⟨.due d table, h.tells hg ⟨rfl, fun g' o' => Q g' o', since, hw, hp, hr⟩⟩

/-- What a step does about the session in flight: it is a new one, or what it says about outline
tables stays, or a table is written down in it that a thread has just been given. -/
def Heeds (s s' : Traffic ε κ) (x x' : View) : Prop :=
  ∀ r u, x'.owner = some (r, u) →
    x.owner = none ∧ (∀ p ∈ s'.told, p.1 ≠ .session r) ∨
    x.owner = some (r, u) ∧ (s'.world.tableIn r = s.world.tableIn r ∨
      ∃ n table, (s.callers n).entering = some table ∧ s'.world.tableIn r = some table)

theorem Heeds.of_world {s s' : Traffic ε κ} {x : View} (h : s'.world = s.world) :
    Heeds s s' x x :=
  fun _ _ hr => .inr ⟨hr, .inl (by rw [h])⟩

theorem Orderly.heeds (h : D.Orderly s x γ) (ht : D.Turn n s.world x (γ n) w' x' g')
    (c : Caller ε κ) : Heeds s { s.put n c with world := w' } x x' := by
  intro r u hr
  rcases ht.changes.flight (h.fits n) hr with ⟨hx, htable, -⟩ | ⟨ho, hsize, -⟩ |
    ⟨hx, d, table, hg, -, htable⟩
  · exact .inr ⟨hx, .inl htable⟩
  · exact .inl ⟨ho, h.fresh hsize⟩
  · exact .inr ⟨hx, .inr ⟨n, table, (h.follows n).1.trans (by rw [hg]; rfl), htable⟩⟩

/-- A thread that asks something of foreign code may be thought of as inside of some blocks. -/
theorem Asks.fits {c : Call κ} {d : Nat} (h : D.Asks g c d) (hf : g.Fits n w x) :
    (Phase.free d).Fits n w x ∧ (∀ told, (Phase.free d).writtenOf told = g.writtenOf told) ∧
      ((c.tableTold? (.ok .none)).isSome → 0 < d) := by
  cases h with
  | free hd => exact ⟨hf, fun _ => rfl, hd⟩
  | @rows d table =>
    exact ⟨⟨hf.aside, hf.holds, by simp, by simp⟩, fun _ => rfl, fun _ => Nat.succ_pos d⟩

/-- A step of a method keeps what holds throughout. -/
theorem Orderly.advance (h : D.Orderly s x γ) (hadv : D.advance s n = some s') :
    ∃ x' γ', D.Orderly s' x' γ' ∧ Heeds s s' x x' := by
  have hfollows := h.follows n
  have he := hfollows.1
  unfold Desk.advance at hadv
  simp only at hadv
  split at hadv
  -- a method ends that another one has called, which goes on
  · rename_i o next rest hnow hs
    obtain ⟨P, since, hw, hp, hstack⟩ := hfollows.inside hnow
    obtain rfl := Option.some.inj hadv
    rw [hs] at hstack
    cases hstack with
    | method hw' hnext hr =>
      exact ⟨x, _, h.goes ⟨he, _, _, hw', hnext _ _ (hp since (.refl _ _)), hr⟩, .of_world rfl⟩
  -- a method ends that foreign code has called
  · rename_i o rest hnow hs
    obtain ⟨P, since, hw, hp, hstack⟩ := hfollows.inside hnow
    obtain rfl := Option.some.inj hadv
    rw [hs] at hstack
    cases hstack with
    | called hd hr =>
      have hg := hd _ _ (hp since (.refl _ _))
      refine ⟨x, _, h.control (h.fits n) rfl (fun _ ht => ht) ⟨?_, _, hg, hr⟩, .of_world rfl⟩
      rw [hg]
      rfl
  · rename_i β change next stack hnow
    obtain ⟨P, since, hw, hp, hstack⟩ := hfollows.inside hnow
    obtain rfl := Option.some.inj hadv
    obtain ⟨x', g', hturn, hnext⟩ := hp s.world x hw h.standing (h.fits n)
    exact ⟨x', _, h.turn hturn ⟨he.trans hturn.changes.entering.symm, P, _, .refl _ _, hnext,
      hstack.grows hturn.passes.rows⟩, h.heeds hturn _⟩
  -- a call begins another method, or leaves the thread to foreign code
  · rename_i c next stack hnow
    obtain ⟨P, since, hw, hp, hstack⟩ := hfollows.inside hnow
    simp only [Sound] at hp
    split at hadv
    · rename_i hc
      rw [if_pos hc] at hp
      obtain ⟨P', hserves, hnext⟩ := hp
      obtain rfl := Option.some.inj hadv
      exact ⟨x, _, h.goes ⟨he, P', since, hw, sound_body hserves, .method hw hnext hstack⟩,
        .of_world rfl⟩
    · rename_i hc
      rw [if_neg hc] at hp
      obtain ⟨d, hasks, hnext⟩ := hp
      obtain rfl := Option.some.inj hadv
      obtain ⟨hfits, hwritten, hd⟩ := hasks.fits (h.fits n)
      exact ⟨x, _, h.control hfits (hwritten _) (by simp [Phase.entering])
        ⟨rfl, d, rfl, .asked hw hd hnext hstack⟩, .of_world rfl⟩
  · cases hadv

/-- Every step of any thread keeps what holds throughout. -/
theorem Orderly.step (h : D.Orderly s x γ) (hs : D.Step s s') :
    ∃ x' γ', D.Orderly s' x' γ' ∧ Heeds s s' x x' := by
  cases hs with
  | advance n hadv => exact h.advance hadv
  | wake n held hn =>
    have hfollows := h.follows n
    obtain ⟨P, since, hw, hp, hstack⟩ := hfollows.inside hn
    exact ⟨x, _, h.goes ⟨hfollows.1, P, since, hw, hp.2 held, hstack⟩, .of_world rfl⟩
  | elsewhere w' hw =>
    -- a turn of any thread that stays where it is, so the first one will do
    have hturn : D.Turn 0 s.world x (γ 0) w' _ (γ 0) := .beside h.standing hw
    have hturn' := h.turn hturn ((h.follows 0).grows hw.rows)
    have hheeds := h.heeds hturn (s.callers 0)
    rw [Traffic.put_self] at hturn' hheeds
    exact ⟨_, _, hturn', hheeds⟩
  | enter n m args hm hn =>
    obtain ⟨d, hg, hstack⟩ := (h.follows n).outside hn
    refine ⟨x, _, h.goes ⟨?_, leaves d, s.world, .refl _ _, ?_, .called (fun _ _ h => h) hstack⟩,
      .of_world rfl⟩
    · rw [hg]
      rfl
    · rw [hg]
      cases m <;> first
        | exact sound_body (.entry d _ args)
        | exact sound_body (.cancel d args)
        | cases hm
  | answer n o hn hs =>
    obtain ⟨g', hg'⟩ := h.answered hn hs o
    exact ⟨x, _, hg', .of_world rfl⟩

/-! ## The law -/

/-- What the walker shows as the current outline table. -/
def shown (D : Desk ε κ) (s : Traffic ε κ) : Except Failure World.Member :=
  s.world.member (.walker D.walker) "current_table"

/-- Nobody has called the walker yet, and it is idle. -/
structure Rests (D : Desk ε κ) (s : Traffic ε κ) : Prop where
  callers : ∀ n, s.callers n = .apart
  told : s.told = []
  idle : ∃ x, D.Standing s.world x ∧ x.owner = none

/-- Which outline table is shown, and how that changes. -/
structure Lawful (D : Desk ε κ) (s : Traffic ε κ) : Prop where
  /-- The walker shows the outline table of the visit in the session in flight whose observers were
  all told of it last, unless a thread has just been given a table. -/
  latest : (∀ n, (s.callers n).entering = none) →
    D.shown s = .ok (.value (Traffic.latest s.told (s.session D.token)))
  /-- Whenever foreign code runs on a thread, the thread is done with what it has been given. -/
  outside : ∀ n, (s.callers n).now = none → (s.callers n).entering = none
  /-- While the walker is idle it shows no outline table. -/
  idle : s.session D.token = .none → D.shown s = .ok (.value .none)
  /-- A thread that has just been given an outline table walks, in a session that is there; until
  the table is shown, the one that was told of before it in the session is. -/
  entering : ∀ n table, (s.callers n).entering = some table → ∃ r earlier,
    s.session D.token = .session r ∧
    s.world.ownValue (.session r) Session.threadField = (D.thread n).number ∧
    s.told = (.session r, table) :: earlier ∧
    (D.shown s = .ok (.value (Traffic.latest earlier (.session r))) ∨
      D.shown s = .ok (.value table))
  /-- It goes on, and does not fail on the way: the next that it does about foreign code is to ask
  the outline table for its rows, and then the table is shown. -/
  succeeds : ∀ n table, (s.callers n).entering = some table → ∃ s', D.advance s n = some s' ∧
    ((s'.callers n).now = none → D.shown s' = .ok (.value table) ∧ ∃ next rest,
      (s'.callers n).stack = .asked (.send table .accept [.walker D.walker]) next :: rest)
  /-- In a session that has just been opened no outline table has been told of. -/
  fresh : ∀ s', D.Step s s' → s'.session D.token ≠ s.session D.token →
    ∀ p ∈ s'.told, p.1 ≠ s'.session D.token
  /-- While a session is in flight, what is shown changes only when a thread shows the outline
  table that it has just been given. -/
  only : ∀ s', D.Step s s' → s'.session D.token = s.session D.token →
    D.shown s' = D.shown s ∨ ∃ n table, (s.callers n).entering = some table ∧
      D.shown s' = .ok (.value table)

/-- The session in flight, as the token shows it. -/
theorem Standing.session (h : D.Standing s.world x) :
    s.session D.token = Ownership.sessionOf x.owner := h.shows.session

theorem Standing.shown_idle (h : D.Standing s.world x) (ho : x.owner = none) :
    D.shown s = .ok (.value .none) := by
  have hown := h.ownership
  have hsession : s.world.ownValue (.token D.token) Token.sessionField = .none :=
    h.session.trans (by rw [ho]; rfl)
  obtain ⟨v, hcarried⟩ := Option.isSome_iff_exists.1 h.keeps
  rw [World.ownValue_of_carried hcarried] at hsession
  subst hsession
  simp only [World.carried, Walker.ownershipField, Token.sessionField] at hown hcarried
  simp [shown, World.member, World.extent, World.memberWithin, World.getter?, World.walkerGetter?,
    World.tokenGetter?, World.workOut, World.reached, World.memberHere, Walker.ownershipField,
    Token.sessionField, World.Member.plain, bind, Except.bind, pure, Except.pure, hown, hcarried]

theorem Standing.shown_of_table (h : D.Standing s.world x) {r : Ref .session} {u : Thread}
    {table : Value} (ho : x.owner = some (r, u)) (ht : s.world.tableIn r = some table) :
    D.shown s = .ok (.value table) := by
  have hown := h.ownership
  have hsession : s.world.ownValue (.token D.token) Token.sessionField = .session r :=
    h.session.trans (by rw [ho]; rfl)
  have hcarried := World.get?_of_ownValue hsession (by simp)
  simp only [World.tableIn, World.carried, Walker.ownershipField, Token.sessionField,
    Session.tableField] at hown hcarried ht
  simp [shown, World.member, World.extent, World.memberWithin, World.getter?, World.walkerGetter?,
    World.tokenGetter?, World.workOut, World.reached, World.memberHere, Walker.ownershipField,
    Token.sessionField, Session.tableField, World.Member.plain, bind, Except.bind, hown, hcarried,
    ht]

/-- No outline table is told of while no session is in flight. -/
theorem Orderly.latest_idle (h : D.Orderly s x γ) : Traffic.latest s.told .none = .none := by
  refine latest_of_untold fun p hp => ?_
  obtain ⟨r, hr, -⟩ := h.told p hp
  simp [hr]

/-- The outline table that was written down last in the session in flight is shown. -/
theorem Orderly.shown (h : D.Orderly s x γ) {r : Ref .session} {u : Thread}
    (hx : x.owner = some (r, u)) : D.shown s =
      .ok (.value (Traffic.latest ((γ u.id).writtenOf s.told) (.session r))) :=
  h.standing.shown_of_table hx (h.table r u hx)

theorem Phase.writtenOf_of_entering {g : Phase} (h : g.entering = none)
    (told : List (Value × Value)) : g.writtenOf told = told := by
  cases g <;> first
    | rfl
    | cases h

theorem Orderly.shown_idle (h : D.Orderly s x γ) (hs : s.session D.token = .none) :
    D.shown s = .ok (.value .none) := by
  cases hx : x.owner with
  | none => exact h.standing.shown_idle hx
  | some o =>
    rw [h.standing.session, hx] at hs
    cases hs

/-- A thread that has just been given an outline table walks, and the table is shown when it is
written down. -/
theorem Orderly.entered (h : D.Orderly s x γ) {table : Value}
    (hn : (s.callers n).entering = some table) : ∃ r earlier,
      s.session D.token = .session r ∧
      s.world.ownValue (.session r) Session.threadField = (D.thread n).number ∧
      s.told = (.session r, table) :: earlier ∧
      (D.shown s = .ok (.value (Traffic.latest earlier (.session r))) ∨
        D.shown s = .ok (.value table)) := by
  have he : (γ n).entering = some table := (h.follows n).1.symm.trans hn
  obtain ⟨r, u, earlier, hx, hu, htold⟩ := h.owns he
  have hshown := h.shown hx
  rw [hu, htold] at hshown
  refine ⟨r, earlier, h.standing.session.trans (by rw [hx]; rfl), ?_, htold, ?_⟩
  · rw [World.ownValue_of_carried (h.standing.shows.runs r u hx).number, Thread.number, hu]
    rfl
  · cases hg : γ n with
    | free | closing => simp [hg, Phase.entering] at he
    | due | aimed =>
      rw [hg] at hshown
      exact .inl hshown
    | written =>
      rw [hg, Phase.writtenOf, latest_cons] at hshown
      exact .inr hshown

/-- A thread that has just been given an outline table goes on, and when it asks for something it
asks the table for its rows, and shows the table. -/
theorem Orderly.succeeds (h : D.Orderly s x γ) {table : Value}
    (hn : (s.callers n).entering = some table) : ∃ s', D.advance s n = some s' ∧
      ((s'.callers n).now = none → D.shown s' = .ok (.value table) ∧ ∃ next rest,
        (s'.callers n).stack = .asked (.send table .accept [.walker D.walker]) next :: rest) := by
  have he : (γ n).entering = some table := (h.follows n).1.symm.trans hn
  unfold Desk.advance
  simp only
  -- such a thread is neither in foreign code nor back from a method that foreign code has called,
  -- since either leaves it in a phase in which nothing has just been given
  cases hnow : (s.callers n).now with
  | none =>
    obtain ⟨d, hg, -⟩ := (h.follows n).outside hnow
    rw [hg] at he
    cases he
  | some p =>
    obtain ⟨P, since, hw, hp, hstack⟩ := (h.follows n).inside hnow
    cases p with
    | done o =>
      generalize hs : (s.callers n).stack = stack at *
      cases hstack with
      | method => exact ⟨_, rfl, by simp⟩
      | called hd hr =>
        rw [hd _ _ (hp since (.refl _ _))] at he
        cases he
    | step change next => exact ⟨_, rfl, by simp⟩
    | wait ready until? next => simp [hp.1] at he
    | start t c next => exact hp.elim
    | call c next =>
      by_cases hc : D.answers c
      · exact ⟨_, if_pos hc, by simp⟩
      · simp only [Sound, if_neg hc] at hp
        obtain ⟨d, hasks, -⟩ := hp
        refine ⟨_, if_neg hc, fun _ => ?_⟩
        generalize hg : γ n = g at *
        cases hasks with
        | free => cases he
        | rows =>
          obtain rfl := Option.some.inj he
          obtain ⟨r, u, earlier, hx, hu, htold⟩ := h.owns (n := n) (by rw [hg]; rfl)
          have hshown := h.shown hx
          rw [hu, hg, htold, Phase.writtenOf, latest_cons] at hshown
          exact ⟨hshown, next, (s.callers n).stack, by rw [Traffic.put_callers_self]⟩

/-- While nobody has just been given an outline table, the one that was told of last in the session
in flight is shown, and none if there is no such session. -/
theorem Orderly.shown_latest (h : D.Orderly s x γ) (hn : ∀ n, (s.callers n).entering = none) :
    D.shown s = .ok (.value (Traffic.latest s.told (s.session D.token))) := by
  rw [h.standing.session]
  cases hx : x.owner with
  | none =>
    rw [h.standing.shown_idle hx]
    exact congrArg (Except.ok ∘ World.Member.value) h.latest_idle.symm
  | some o =>
    obtain ⟨r, u⟩ := o
    rw [h.shown hx, Phase.writtenOf_of_entering ((h.follows u.id).1.symm.trans (hn u.id))]
    rfl

/-- In a session that a step has opened no outline table has been told of. -/
theorem Orderly.untold (h : D.Orderly s x γ) {γ' : Nat → Phase} (h' : D.Orderly s' x' γ')
    (hheeds : Heeds s s' x x') (hne : s'.session D.token ≠ s.session D.token) :
    ∀ p ∈ s'.told, p.1 ≠ s'.session D.token := by
  have hsession := h.standing.session
  have hsession' := h'.standing.session
  cases hx : x'.owner with
  | none =>
    intro p hp
    obtain ⟨r, hr, -⟩ := h'.told p hp
    simp [hsession', hx, hr, Ownership.sessionOf]
  | some o =>
    obtain ⟨r, u⟩ := o
    rw [hx] at hsession'
    rcases hheeds r u hx with ⟨-, hnone⟩ | ⟨hsame, -⟩
    · rw [hsession']
      exact hnone
    · rw [hsession, hsession', hsame] at hne
      exact absurd rfl hne

/-- A step that leaves the session in flight leaves what is shown, unless a thread shows the outline
table that it has just been given. -/
theorem Orderly.only (h : D.Orderly s x γ) {γ' : Nat → Phase} (h' : D.Orderly s' x' γ')
    (hheeds : Heeds s s' x x') (heq : s'.session D.token = s.session D.token) :
    D.shown s' = D.shown s ∨
      ∃ n table, (s.callers n).entering = some table ∧ D.shown s' = .ok (.value table) := by
  have hsession := h.standing.session
  have hsession' := h'.standing.session
  cases hx : x'.owner with
  | none =>
    refine .inl ((h'.standing.shown_idle hx).trans (h.shown_idle ?_).symm)
    rw [← heq, hsession', hx]
    rfl
  | some o =>
    obtain ⟨r, u⟩ := o
    rcases hheeds r u hx with ⟨hnone, -⟩ | ⟨hsame, hkept | ⟨n, table, hn, hnew⟩⟩
    · rw [hsession, hsession', hx, hnone] at heq
      cases heq
    · refine .inl ?_
      rw [h'.standing.shown_of_table hx (hkept.trans (h.table r u hsame)), h.shown hsame]
    · exact .inr ⟨n, table, hn, h'.standing.shown_of_table hx hnew⟩

/-- What holds throughout says which outline table is shown. -/
theorem Orderly.lawful (h : D.Orderly s x γ) : D.Lawful s where
  latest := h.shown_latest
  outside n hn := by
    obtain ⟨d, hg, -⟩ := (h.follows n).outside hn
    rw [(h.follows n).1, hg]
    rfl
  idle := h.shown_idle
  entering _ _ hn := h.entered hn
  succeeds _ _ hn := h.succeeds hn
  fresh s' hs' hne := by
    obtain ⟨x', γ', h', hheeds⟩ := h.step hs'
    exact h.untold h' hheeds hne
  only s' hs' heq := by
    obtain ⟨x', γ', h', hheeds⟩ := h.step hs'
    exact h.only h' hheeds heq

/-- Nothing has happened yet. -/
theorem Rests.orderly (h : D.Rests s) : ∃ x γ, D.Orderly s x γ := by
  obtain ⟨x, hstanding, ho⟩ := h.idle
  exact ⟨x, fun _ => .free 0,
    { standing := hstanding
      fits := fun n => ⟨by simp [ho], by simp [Phase.blocks], by simp, by simp⟩
      follows := fun n => by
        rw [h.callers n]
        exact ⟨rfl, 0, rfl, .empty⟩
      table := by simp [ho]
      entering := by simp [Phase.entering]
      told := by simp [h.told] }⟩

/-- **Which outline table a walker shows**, at every point of every run. -/
theorem current_table_law {s₀ : Traffic ε κ} (h₀ : D.Rests s₀) (h : D.Runs s₀ s) : D.Lawful s := by
  suffices ∃ x γ, D.Orderly s x γ by
    obtain ⟨x, γ, hs⟩ := this
    exact hs.lawful
  induction h with
  | refl => exact h₀.orderly
  | snoc _ hs ih =>
    obtain ⟨x, γ, h⟩ := ih
    obtain ⟨x', γ', h', -⟩ := h.step hs
    exact ⟨x', γ', h'⟩

/-! ## A table inside of a table -/

/-- A thread goes on for at most some steps, up to the next time that foreign code runs on it. -/
def goOn (D : Desk ε κ) (n : Nat) : Nat → Traffic ε κ → Traffic ε κ
  | 0, s => s
  | k + 1, s =>
    match D.advance s n with
    | some s' => goOn D n k s'
    | none => s

theorem Runs.goOn {s₀ : Traffic ε κ} (k : Nat) (h : D.Runs s₀ s) :
    D.Runs s₀ (D.goOn n k s) := by
  induction k generalizing s with
  | zero => exact h
  | succ k ih =>
    rw [Desk.goOn]
    split
    · rename_i s' hs'
      exact ih (h.snoc (.advance n hs'))
    · exact h

namespace Nested

/-- Nodes and observers that do nothing. -/
def foreign : Foreign Unit Empty where
  accept _ _ _ _ := pure .none
  before _ _ _ _ := pure .none
  after _ _ _ := pure .none
  handle _ _ _ _ := pure .none
  method _ _ _ _ := pure .none
  obstruct _ w := (.tooDeep, w)
  further _ c := nomatch c

/-- A walker with its token, and its only thread. -/
def desk : Desk Unit Empty := ⟨foreign, ⟨0⟩, ⟨0⟩, ⟨0⟩, .int 30, fun _ => "A"⟩

/-- The world after the token and the walker have been made. -/
def made : World Unit :=
  let w := ((Act.newToken (.int 30)).run (.empty ())).2
  { w with walkers := w.walkers.add (.new .none .none (.token ⟨0⟩) .none .none (.adapter ⟨0⟩)) }

/-- Nobody has called the walker yet. -/
def start : Traffic Unit Empty := ⟨made, fun _ => .apart, []⟩

/-- Foreign code visits an outline table, and the walker goes on to tell the observers of it. -/
def visits (name : String) (s : Traffic Unit Empty) : Traffic Unit Empty :=
  desk.goOn 0 100 (desk.entered s 0 (.entry .outlineTable) [.text name])

/-- Foreign code answers what it was asked, and the walker goes on. -/
def answers (o : Outcome) (s : Traffic Unit Empty) : Traffic Unit Empty :=
  match (s.callers 0).stack with
  | .asked c next :: rest => desk.goOn 0 100 (desk.answered s 0 c next rest o)
  | _ => s

theorem runs_visits {s : Traffic Unit Empty} (h : desk.Runs start s) (name : String)
    (hn : (s.callers 0).now = none) : desk.Runs start (visits name s) :=
  (h.snoc (.enter 0 _ _ rfl hn)).goOn 100

theorem runs_answers {s : Traffic Unit Empty} (h : desk.Runs start s) (o : Outcome)
    (hn : (s.callers 0).now = none) : desk.Runs start (answers o s) := by
  unfold answers
  split
  · rename_i hs
    exact (h.snoc (.answer 0 o hn hs)).goOn 100
  · exact h

/-- The observers are told of an outline table. -/
def began : Traffic Unit Empty := visits "outer" start

/-- They have been told of it, and it is asked for its rows. -/
def outer : Traffic Unit Empty := answers (.ok .none) began

/-- The observers are told of another outline table, on behalf of the first one. -/
def beganAgain : Traffic Unit Empty := visits "inner" outer

/-- They have been told of that one as well, and it is asked for its rows. -/
def inner : Traffic Unit Empty := answers (.ok .none) beganAgain

/-- The second outline table has failed. -/
def failed : Traffic Unit Empty := answers (.error .tooDeep) inner

theorem rests_start : desk.Rests start where
  callers _ := rfl
  told := rfl
  idle := ⟨⟨none, 0, 0, 0, ⟨0⟩, [], .int 30⟩,
    { shows := ⟨rfl, rfl, rfl, rfl, ⟨_, rfl⟩, rfl, rfl, by simp⟩
      condition := rfl
      timeout := rfl
      ownership := rfl
      keeps := rfl
      walkerOpen := World.unhidden_of_names (by decide)
      tokenOpen := World.unhidden_of_names (by decide)
      flight := by simp }, rfl⟩

theorem runs_failed : desk.Runs start failed := by
  have hbegan : desk.Runs start began := runs_visits (.refl _) "outer" rfl
  have houter : desk.Runs start outer := runs_answers hbegan (.ok .none) rfl
  have hagain : desk.Runs start beganAgain := runs_visits houter "inner" rfl
  have hinner : desk.Runs start inner := runs_answers hagain (.ok .none) rfl
  exact runs_answers hinner (.error .tooDeep) rfl

end Nested

open Nested in
/-- When the visit of an outline table inside of another one has failed, that table is still shown
to whoever goes on with the outer one. -/
theorem failed_table_is_still_shown :
    ∃ s, desk.Rests start ∧ desk.Runs start s ∧ (s.callers 0).now = none ∧
      s.told = [(.session ⟨0⟩, .text "inner"), (.session ⟨0⟩, .text "outer")] ∧
      desk.shown s = .ok (.value (.text "inner")) := by
  have hlaw := current_table_law rests_start runs_failed
  refine ⟨failed, rests_start, runs_failed, rfl, rfl, ?_⟩
  have hnone : ∀ n, (failed.callers n).entering = none
    | 0 => rfl
    | _ + 1 => rfl
  exact hlaw.latest hnone

end Desk

end GuardedWalk
