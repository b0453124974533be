import GuardedWalk.Proofs.Choir.Walking
import GuardedWalk.Proofs.Nesting.Reading

/-!
# The history of a recorder

Whoever has a recorder may tell it something or make it forget all that it has noted, on any thread
and at any time; it holds its lock meanwhile, so nothing else happens to it until it has answered.
Between two such calls anything may happen that leaves alone what the recorder reads and writes.
What it has noted at any moment is what it has been told since it was last made to forget.

## Main definitions

* `GuardedWalk.Cue` — what a recorder can be called for.
* `GuardedWalk.Cue.since` — what a recorder has been told since it was last made to forget.
* `GuardedWalk.Recorder.Hears` — a recorder is called, and other things happen.

## Main results

* `GuardedWalk.Recorder.Keeps.cued` — a recorder can be called for anything.
* `GuardedWalk.Recorder.Hears.keeps` — what a recorder has noted at some moment of its history.
-/

set_option autoImplicit false

namespace GuardedWalk

/-- What a recorder can be called for. -/
inductive Cue where
  /-- It is told something. -/
  | told (n : Told)
  /-- It is to forget its notes. -/
  | clear

namespace Cue

/-- The call that is made. -/
def call {κ : Type} (o : Ref .observer) : Cue → Call κ
  | told n => n.call o
  | clear => .send (.observer o) .clear []

/-- What a recorder has been told since it was last made to forget, after one more call. -/
def followed (ts : List Told) : Cue → List Told
  | told n => ts ++ [n]
  | clear => []

/-- What a recorder has been told since it was last made to forget, in order. -/
def since (cs : List Cue) : List Told := cs.foldl followed []

theorem since_concat (cs : List Cue) (c : Cue) : since (cs ++ [c]) = followed (since cs) c := by
  simp [since]

theorem since_append_told (cs : List Cue) (ts : List Told) :
    since (cs ++ ts.map told) = since cs ++ ts := by
  induction ts using List.reverseRecOn with
  | nil => simp
  | append_singleton ts n ih =>
    rw [List.map_append, List.map_singleton, ← List.append_assoc, since_concat, ih, followed,
      List.append_assoc]

end Cue

namespace Recorder

open Surroundings

variable {ε κ : Type} {R : Recorder} {D : Ref .list → Prop} {k : Record} {w w' w₀ : World ε}
  {F : Foreign ε κ} {t : Thread} {σ : Moment ε κ} {ρ : Rule ε κ} {cs : List Cue}

/-! ## A recorder forgets -/

/-- The lists after both lists of a recorder have been emptied. -/
theorem get_emptied (w : World ε) (l : Ref .list) :
    ((w.emptied (.list R.notes)).emptied (.list R.opened)).lists.get l =
      if l = R.notes ∨ l = R.opened then #[] else w.lists.get l := by
  simp only [World.emptied, Store.get_set]
  by_cases ho : l = R.opened <;> simp [ho]

theorem Keeps.emptied (hk : R.Keeps D k w) :
    R.Keeps D .blank ((w.emptied (.list R.notes)).emptied (.list R.opened)) where
  cls := hk.cls
  unhidden := hk.unhidden
  notesField := hk.notesField
  openField := hk.openField
  lockField := hk.lockField
  apart := hk.apart
  notesApart := hk.notesApart
  openApart := hk.openApart
  opened := by simp [World.items, get_emptied, Record.blank]
  notes := ⟨[], by simp [World.items, get_emptied], rfl, by simp⟩

/-- A list in an attribute is emptied. -/
theorem empty_yields {α : Type} (hρ : SparesLists ρ) {v : Value} {field : String} {l : Ref .list}
    (hl : σ.world.ownValue v field = .list l) {rest : Walk.Steps ε κ α}
    {Q : Except Failure α → Moment ε κ → Prop}
    (hrest : ∀ σ' : Moment ε κ, σ'.world = σ.world.emptied (.list l) → σ'.window = .open →
      σ'.calls = σ.calls ++ [.send (.list l) .clear []] →
      (alone (Walk.body F t)).Yields ρ σ' rest Q) :
    (alone (Walk.body F t)).Yields ρ σ
      (Walk.own v field >>= fun x => Walk.send x .clear [] >>= fun _ => rest) Q := by
  refine .bind (alone_look (r := .ok (.list l)) (congrArg Except.ok hl) ?_)
  exact .bind (list_yields hρ (r := .ok .none) (w := σ.world.emptied (.list l)) (by simp) rfl rfl
    rfl rfl rfl hrest)

/-- What a recorder does that is to forget its notes. -/
theorem forget_yields (hρ : SparesLists ρ) (hk : R.Keeps D k σ.world) (hσ : σ.window = .open)
    {Q : Outcome → Moment ε κ → Prop} (hQ : ∀ σ', R.Jots D .blank σ σ' → Q (.ok .none) σ') :
    (alone (Walk.body F t)).Yields ρ σ (Walk.forget R.observer) Q := by
  refine begin_yields hk hσ fun σ₁ hw₁ hσ₁ hc₁ => ?_
  refine empty_yields hρ (l := R.notes) (by rw [hw₁]; exact hk.ownValue.1) fun σ₂ hw₂ hσ₂ hc₂ => ?_
  refine empty_yields hρ (l := R.opened) (by rw [hw₂, hw₁]; exact hk.ownValue.2.1)
    fun σ₃ hw₃ hσ₃ hc₃ => .pure (hQ σ₃ ?_)
  have hw : σ₃.world = (σ.world.emptied (.list R.notes)).emptied (.list R.opened) := by
    rw [hw₃, hw₂, hw₁]
  refine ⟨⟨_, _, hw, fun l hn ho => ?_, .refl _ _⟩, ?_, hσ₃,
    ⟨[.send (.list R.notes) .clear [], .send (.list R.opened) .clear []], ?_, ?_⟩⟩
  · exact (get_emptied σ.world l).trans (if_neg (by simp [hn, ho]))
  · rw [hw]
    exact hk.emptied
  · rw [hc₃, hc₂, hc₁, List.append_assoc]
    rfl
  · intro c hc
    simp only [List.mem_cons, List.not_mem_nil, or_false] at hc
    rcases hc with rfl | rfl <;> exact ⟨_, _, _, rfl, by simp⟩

/-! ## Calls of a recorder -/

/-- **A recorder can be called for anything**: it answers, and nobody but the recorder notices. -/
theorem Keeps.cued {ts : List Told} (hk : R.Keeps D (Told.record ts) w) (F : Foreign ε κ)
    (t : Thread) (c : Cue) :
    ∃ w' l, Answers (Walk.body F t) w (c.call R.observer) (.ok .none) w' l ∧
      R.Keeps D (Told.record (c.followed ts)) w' ∧
      World.Beside (fun l => l ≠ R.notes ∧ l ≠ R.opened) w w' := by
  cases c with
  | told n =>
    obtain ⟨o, w', l, hanswers, rfl, hk', hbeside, -⟩ := hk.told F t n
    refine ⟨w', l, hanswers, ?_, hbeside⟩
    rw [Cue.followed, Told.record_concat]
    exact hk'
  | clear =>
    let c : Call κ := .send (.observer R.observer) .clear []
    have hmember : w.member (.observer R.observer) Message.clear.name = .ok (.bound .clear) :=
      World.member_of_understands (hk.understands (.inr (.inr (.inr rfl))))
        (hk.unhidden .clear (by simp))
    have hyields : (alone (Walk.body F t)).Yields (.free ε κ) ((Moment.start w).calling c)
        (Walk.body F t c) fun o σ' => o = .ok .none ∧ R.Keeps D .blank σ'.world ∧
          World.Beside (fun l => l ≠ R.notes ∧ l ≠ R.opened) w σ'.world := by
      refine .bind (alone_look hmember (.bind (alone_look (r := .ok none) rfl ?_)))
      exact forget_yields (fun _ _ _ _ _ => trivial) hk rfl fun σ' hj => ⟨rfl, hj.keeps, hj.beside⟩
    obtain ⟨o, σ', l, hanswers, -, rfl, hk', hbeside⟩ := Answers.of_yields hyields
    exact ⟨_, l, hanswers, hk', hbeside⟩

/-- A recorder is called again and again, and meanwhile other things happen. -/
inductive Hears (R : Recorder) (F : Foreign ε κ) (w₀ : World ε) : List Cue → World ε → Prop where
  | start : Hears R F w₀ [] w₀
  /-- The recorder is called for something, on some thread, and has answered. -/
  | called {cs : List Cue} {w w' : World ε} {t : Thread} {c : Cue} {o : Outcome}
    {l : List (Call κ)} (past : Hears R F w₀ cs w)
    (answers : Answers (Walk.body F t) w (c.call R.observer) o w' l) : Hears R F w₀ (cs ++ [c]) w'
  /-- Something happens that leaves the recorder alone. -/
  | meanwhile {cs : List Cue} {w w' : World ε} (past : Hears R F w₀ cs w) (rests : R.Rests w w') :
    Hears R F w₀ cs w'

/-- **What a recorder has noted at some moment of its history** is what it has been told since it
was last made to forget. -/
theorem Hears.keeps (h : R.Hears F w₀ cs w) (hk : R.Keeps D .blank w₀) :
    R.Keeps D (Told.record (Cue.since cs)) w := by
  induction h with
  | start => exact hk
  | @called cs w w' t c o l _ hanswers ih =>
    obtain ⟨w₁, l₁, hanswers₁, hk₁, -⟩ := ih.cued F t c
    obtain ⟨-, rfl⟩ := hanswers.unique hanswers₁
    rw [Cue.since_concat]
    exact hk₁
  | meanwhile _ hrests ih => exact ih.rests hrests

end Recorder

end GuardedWalk
