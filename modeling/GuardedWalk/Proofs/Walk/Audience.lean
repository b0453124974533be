import GuardedWalk.Proofs.Walk.Scripted

/-!
# The audience of a walk

Some observers of a walk take notes. Others remember all that they and their like have been told,
and act on it. Each of them keeps what it keeps in lists of its own, so what one of them does with
its lists is nothing to the others.

## Main definitions

* `GuardedWalk.Audience` — observers some of which take notes while others act.
* `GuardedWalk.Audience.Listens` — such observers are ready to be told something.
* `GuardedWalk.Foreign.mindful` — foreign code of observers that act on all they have been told.

## Main results

* `GuardedWalk.Audience.Listens.jots`, `Listens.beside` — what one of them does leaves the others
  alone.
-/

set_option autoImplicit false

namespace GuardedWalk

variable {ε κ : Type}

/-- A recorder notes something in its own lists. -/
theorem Recorder.Jots.beside {R : Recorder} {D : Ref .list → Prop} {k : Record}
    {σ σ' : Moment ε κ} (hj : R.Jots D k σ σ') :
    World.Beside (fun l => l ≠ R.notes ∧ l ≠ R.opened) σ.world σ'.world := by
  obtain ⟨ls, ts, hw, hls, hts⟩ := hj.world
  rw [hw]
  exact World.beside_contents (fun l hl => hls l hl.1 hl.2) hts

/-- Observers some of which take notes while others act on what they are told. -/
structure Audience where
  recorders : List Recorder
  /-- The observers that act. -/
  others : List (Ref .observer)
  /-- The lists that nodes keep their parts in. -/
  lists : Ref .list → Prop

namespace Audience

variable {P : Audience} {w w' : World ε} {records : Recorder → Record}

/-- The lists that nobody but those who keep something there may change. -/
def Kept (P : Audience) (l : Ref .list) : Prop :=
  P.lists l ∨ ∃ R ∈ P.recorders, l = R.notes ∨ l = R.opened

/-- All of them are observers of the walker. -/
def Hears (P : Audience) (X : Cast) : Prop :=
  ∀ o ∈ X.observers, o ∈ P.others ∨ ∃ R ∈ P.recorders, R.observer = o

/-- Each recorder has noted something in lists of its own, and the other observers run foreign
code. -/
structure Listens (P : Audience) (records : Recorder → Record) (w : World ε) : Prop where
  notes : ∀ R ∈ P.recorders, R.Keeps P.lists (records R) w
  apart : ∀ R ∈ P.recorders, ∀ R' ∈ P.recorders, R' ≠ R → R'.observer ≠ R.observer ∧
    (R'.notes ≠ R.notes ∧ R'.notes ≠ R.opened) ∧ R'.opened ≠ R.notes ∧ R'.opened ≠ R.opened
  scripted : ∀ o ∈ P.others, w.Scripted P.Kept o

namespace Listens

theorem congr (h : P.Listens records w) {records' : Recorder → Record}
    (hsame : ∀ R ∈ P.recorders, records' R = records R) : P.Listens records' w :=
  { h with notes := fun R hR => by rw [hsame R hR]; exact h.notes R hR }

theorem beside (h : P.Listens records w) (hb : World.Beside P.Kept w w') :
    P.Listens records w' where
  notes R hR := (h.notes R hR).beside hb (.inr ⟨R, hR, .inl rfl⟩) (.inr ⟨R, hR, .inr rfl⟩)
  apart := h.apart
  scripted o ho := (h.scripted o ho).frame hb.toFrame trivial (hb.observers o)

theorem mild (h : P.Listens records w) (hw : w.Mild w') : P.Listens records w' where
  notes R hR := (h.notes R hR).mild hw
  apart := h.apart
  scripted o ho := (h.scripted o ho).frame hw.toFrame rfl (hw.observers o)

/-- One of the recorders has noted something more. -/
theorem jots {σ σ' : Moment ε κ} (h : P.Listens records σ.world) {R : Recorder}
    (hR : R ∈ P.recorders) {records' : Recorder → Record}
    (hj : R.Jots P.lists (records' R) σ σ')
    (hothers : ∀ R' ∈ P.recorders, R'.observer ≠ R.observer → records' R' = records R') :
    P.Listens records' σ'.world where
  notes R' hR' := by
    by_cases hne : R' = R
    · rw [hne]
      exact hj.keeps
    · obtain ⟨ho, hnotes, hopened⟩ := h.apart R hR R' hR' hne
      rw [hothers R' hR' ho]
      exact (h.notes R' hR').beside hj.beside hnotes hopened
  apart := h.apart
  scripted o ho := (h.scripted o ho).frame hj.beside.toFrame trivial (hj.beside.observers o)

/-- Recorders do not act. -/
theorem not_other (h : P.Listens records w) {R : Recorder} (hR : R ∈ P.recorders)
    {o : Ref .observer} (ho : o ∈ P.others) : R.observer ≠ o := by
  rintro rfl
  have hcls := (h.scripted _ ho).cls
  rw [(h.notes R hR).cls] at hcls
  cases hcls

end Listens

/-! ## What is noted -/

/-- What an observer is told among some callbacks. -/
def toldTo (o : Ref .observer) (L : List Callback) : List Told :=
  (L.filter (·.1 = o)).map Prod.snd

theorem toldTo_append (o o' : Ref .observer) (L : List Callback) (n : Told) :
    toldTo o (L ++ [(o', n)]) = toldTo o L ++ if o' = o then [n] else [] := by
  by_cases h : o' = o <;> simp [toldTo, h]

/-- An observer hears of nothing that is told to others. -/
theorem toldTo_callback {o : Ref .observer} {x : Occasion κ} (hne : ∀ n, x ≠ .told o n) :
    toldTo o x.callback?.toList = [] := by
  cases x with
  | told o' n =>
    have ho : o' ≠ o := by
      rintro rfl
      exact hne n rfl
    simp [Occasion.callback?, toldTo, ho]
  | asked c => rfl
  | guarded v => rfl

/-- What recorders have noted after some callbacks. -/
def recordsAfter (records : Recorder → Record) (L : List Callback) (R : Recorder) : Record :=
  (toldTo R.observer L).foldl Record.hear (records R)

section Records

variable {R : Recorder} {L : List Callback} {n : Told}

theorem recordsAfter_self :
    recordsAfter records (L ++ [(R.observer, n)]) R = (recordsAfter records L R).hear n := by
  rw [recordsAfter, toldTo_append, if_pos rfl, List.foldl_append]
  rfl

theorem recordsAfter_of_ne {o : Ref .observer} (h : o ≠ R.observer) :
    recordsAfter records (L ++ [(o, n)]) R = recordsAfter records L R := by
  rw [recordsAfter, recordsAfter, toldTo_append, if_neg h, List.append_nil]

end Records

end Audience

/-! ## Acting on what has been told -/

/-- What observers do who have been told something, given all that they have been told. -/
abbrev Manners (κ : Type) : Type 1 := List Callback → Walk.Steps (List Callback) κ Value

/-- An observer remembers what it is told and acts on it. -/
def Walk.remember (act : Manners κ) (c : Callback) : Walk.Steps (List Callback) κ Value := do
  let history ← Routine.update fun w =>
    (w.foreign ++ [c], { w with foreign := w.foreign ++ [c] })
  act history

/-- Foreign code of observers that remember what they are told and act on it. -/
def Foreign.mindful (F : Foreign (List Callback) κ) (act : Manners κ) : Foreign (List Callback) κ :=
  { F with
    before := fun _ o e args =>
      match e with
      | .event e => Walk.remember act (o, .before e args)
      | _ => pure .none
    after := fun _ o _ => Walk.remember act (o, .after) }

theorem Told.script_mindful (F : Foreign (List Callback) κ) (act : Manners κ) (t : Thread)
    (o : Ref .observer) (ended : Value) (n : Told) :
    n.script (F.mindful act) t o ended = Walk.remember act (o, n) := by
  cases n <;> rfl

namespace Walk

open Surroundings

/-- From one moment to another, things have been done beside a walk. -/
structure Strays (E : Ref .list → Prop) (σ σ' : Moment ε κ) : Prop where
  beside : World.Beside E σ.world σ'.world
  window : σ'.window = .open
  turns : σ.Turns σ'

namespace Strays

variable {E : Ref .list → Prop} {σ σ₁ σ' : Moment ε κ}

theorem refl (hσ : σ.window = .open) : Strays E σ σ := ⟨.refl E _, hσ, .of_calls rfl⟩

theorem trans (h : Strays E σ σ₁) (h' : Strays E σ₁ σ') : Strays E σ σ' :=
  ⟨h.beside.trans h'.beside, h'.window, h.turns.trans h'.turns⟩

end Strays

/-- **An observer that is told something remembers it**, and then does what it does. -/
theorem mindful_yields {F : Foreign (List Callback) κ} {act : Manners κ} {t : Thread}
    {R : Rule (List Callback) κ} {σ : Moment (List Callback) κ} {E : Ref .list → Prop}
    {o : Ref .observer} (hlists : Recorder.SparesLists R) (ho : σ.world.Scripted E o)
    (hevents : ∀ e : Event,
      (σ.world.carried (.event e)).get? "_value_" = some (.text e.methodName))
    (hσ : σ.window = .open) (n : Told) {Q : Outcome → Moment (List Callback) κ → Prop}
    (hQ : ∀ σ', Strays E σ σ' → σ'.world.foreign = σ.world.foreign ++ [(o, n)] →
      (alone (body (F.mindful act) t)).Yields R σ' (act (σ.world.foreign ++ [(o, n)])) Q) :
    (alone (body (F.mindful act) t)).Yields R σ (body (F.mindful act) t (n.call o)) Q := by
  refine script_yields hlists ho hevents hσ n fun ended σ₁ h₁ => ?_
  obtain ⟨hbeside, hforeign⟩ := h₁.beside
  rw [Told.script_mindful]
  let w₂ : World (List Callback) :=
    { σ₁.world with foreign := σ.world.foreign ++ [(o, n)] }
  have h₂ : Strays E σ (σ₁.stepped w₂) :=
    ⟨hbeside.trans (World.beside_foreign E _ _), by simp [Moment.stepped, h₁.window, Window.next],
      h₁.turns.trans (.of_calls rfl)⟩
  refine .bind (alone_step (r := .ok (σ.world.foreign ++ [(o, n)])) (w := w₂) ?_ (hQ _ h₂ rfl))
  simp only [w₂, hforeign]

end Walk

/-! ## A small document -/

namespace Pair

/-- Foreign code that does nothing. -/
def code : Foreign (List Callback) Empty where
  accept _ _ _ _ := pure .none
  before _ _ _ _ := pure .none
  after _ _ _ := pure .none
  handle _ _ _ _ := pure .none
  method _ _ _ _ := pure .none
  obstruct _ w := (.numberTooLarge, w)
  further _ _ := pure .none

/-- The small document with a recorder, an observer that runs foreign code, and a policy that writes
reports. -/
def furnished : World (List Callback) :=
  { World.empty [] with
    nodes := Document.loginWorld.nodes
    lists := ⟨Document.loginWorld.lists.cells ++ Array.replicate 5 #[]⟩
    locks := ⟨#[(), ()]⟩
    observers := ⟨#[
      ⟨.recording, 0, [(Observer.notesField, .list ⟨4⟩), (Observer.openField, .list ⟨5⟩),
        (Observer.lockField, .lock ⟨0⟩)]⟩,
      ⟨.scripted, 0, [(Observer.stackField, .list ⟨6⟩), (Observer.callsField, .list ⟨7⟩)]⟩]⟩
    policies := ⟨#[⟨.record, Policy.recording (.list ⟨8⟩) (.bool false) (.lock ⟨1⟩)⟩]⟩ }

/-- The world after a walker has been made. -/
def world : World (List Callback) :=
  Act.assembled furnished ([⟨1⟩, ⟨0⟩].map .observer) .none .none (.float .zero) (.policy ⟨0⟩)
    (.bool true) furnished.policies furnished.locks .empty furnished.lists

/-- Who takes part in the walks of the walker. -/
def cast : Cast := Act.castFor furnished [⟨1⟩, ⟨0⟩] (.float .zero) default

def recorder : Recorder := ⟨⟨0⟩, ⟨4⟩, ⟨5⟩, ⟨0⟩⟩

/-- The recorder and the other observer. -/
def audience : Audience where
  recorders := [recorder]
  others := [⟨1⟩]
  lists := (4 : Nat)

theorem assembled : cast.Assembled world :=
  Act.assembled_assembled (by decide) (fun _ => rfl) ⟨_, rfl⟩ default

theorem held : Held world cast .idle := Act.assembled_held default

theorem hears : audience.Hears cast := by
  show ∀ o ∈ [(⟨1⟩ : Ref .observer), ⟨0⟩], _
  simp [audience, recorder]

theorem fits : Document.login.Fits audience.lists world := by
  have h : Document.login.Pristine (4 : Nat) world := by
    constructor <;> decide
  exact h.fits

theorem kept_iff {l : Ref .list} :
    audience.Kept l ↔ l.index < 4 ∨ l = ⟨4⟩ ∨ l = ⟨5⟩ := by
  simp [Audience.Kept, audience, recorder]

theorem scripted : world.Scripted audience.Kept ⟨1⟩ where
  cls := rfl
  unhidden := World.unhidden_of_names (by decide)
  stack := ⟨⟨6⟩, rfl, by simp [kept_iff]⟩
  calls := ⟨⟨7⟩, rfl, by simp [kept_iff]⟩

theorem listens : audience.Listens (fun _ => .blank) world where
  notes := by
    simp only [audience, List.mem_singleton, forall_eq]
    exact {
      cls := rfl
      unhidden := World.unhidden_of_names (by decide)
      notesField := rfl, openField := rfl, lockField := rfl
      apart := by decide
      notesApart := by simp [recorder]
      openApart := by simp [recorder]
      opened := rfl
      notes := ⟨[], rfl, rfl, by simp⟩ }
  apart := by simp [audience]
  scripted := by
    simp only [audience, List.mem_singleton, forall_eq]
    exact scripted

end Pair

end GuardedWalk
