import GuardedWalk.Proofs.Document.Agenda
import GuardedWalk.Proofs.Walk.Scene

/-!
# What others do while a walk goes on

Others may put guards on nodes and take them off again at any time. They may change everything else
as well, as long as they leave the fields of a document alone, and some values that somebody relies
on. A history is any number of such steps. It keeps a document, whatever becomes of the marks of its
nodes, and it keeps the scene of a walk if it leaves the walker of the walk and its token alone.
What a walk does itself is a step of this kind for everybody who does not rely on its token.

## Main definitions

* `GuardedWalk.Meddles` — one step of others.
* `GuardedWalk.Meddling` — any number of steps of others.
* `GuardedWalk.Cast.Intact` — what others must leave alone while a walk goes on.

## Main results

* `GuardedWalk.Meddling.fits` — a history keeps a document.
* `GuardedWalk.Scene.meddling` — the scene of a walk stays as it is, whatever others do.
* `GuardedWalk.World.Footstep.meddles` — a step of one walk is a step of others to another one.
-/

set_option autoImplicit false

namespace GuardedWalk

variable {ε : Type}

/-- One step of others: a guard is put on a value or taken off again, or something else happens that
leaves the document and some values alone. -/
inductive Meddles (V : Value → Prop) (root : Document) (w : World ε) : World ε → Prop where
  | install (obstruct : Obstruction ε) {g : Ref .guard} {v : Value} (hg : w.Unhidden (.guard g))
    (hv : w.Plain v) : Meddles V root w (World.install obstruct w g v).2
  | uninstall (v : Value) : Meddles V root w (w.uninstall v).2
  | other {w' : World ε} (frame : World.Frame V w w')
    (nodes : ∀ d ∈ root.all, w'.carried (.node d.ref) = w.carried (.node d.ref))
    (lists : ∀ d ∈ root.all, ∀ name, ∀ l : Ref .list, w.fieldOf d.ref name = .list l →
      w'.items l = w.items l) : Meddles V root w w'

/-- Any number of steps of others, one after the other. -/
inductive Meddling (V : Value → Prop) (root : Document) (w : World ε) : World ε → Prop where
  | none : Meddling V root w w
  | more {w₁ w' : World ε} (h : Meddling V root w w₁) (h' : Meddles V root w₁ w') :
    Meddling V root w w'

/-- What others must leave alone while a walk goes on: the walker and its token. -/
def Cast.Intact (X : Cast) (v : Value) : Prop := X.Relies v ∨ v = .token X.token

/-- Values whose attributes no change of marks touches. -/
def Lasting (V : Value → Prop) : Prop :=
  ∀ v, V v → v.isSteady = true ∨ ∃ k : Ref .token, v = .token k

variable {V : Value → Prop} {root : Document} {D : Ref .list → Prop} {w w₁ w' : World ε}

theorem Cast.lasting_intact (X : Cast) : Lasting X.Intact := by
  rintro v (hv | rfl)
  · exact .inl (Scene.relies_isSteady hv)
  · exact .inr ⟨X.token, rfl⟩

theorem lasting_none : Lasting fun _ => False := fun _ hv => hv.elim

theorem World.Still.frame (hV : Lasting V) (h : World.Still w w') : World.Frame V w w' :=
  { h.toFrame with
    carried := by
      intro v hv
      rcases hV v hv with hs | ⟨k, rfl⟩
      · exact h.carried v hs
      · exact h.tokens k }

namespace Meddles

theorem frame (hV : Lasting V) (h : Meddles V root w w') : World.Frame V w w' := by
  cases h with
  | install obstruct hg hv =>
    obtain ⟨b, w', hrun, hstill, -⟩ := World.install_run obstruct hv.open hg
    rw [hrun]
    exact hstill.frame hV
  | uninstall v => exact (World.uninstall_run w v).1.frame hV
  | other frame nodes lists => exact frame

/-- A step of others keeps a document, whatever becomes of the marks of its nodes. -/
theorem fits (h : Meddles V root w w') (hd : root.Fits D w) : root.Fits D w' := by
  cases h with
  | install obstruct hg hv =>
    obtain ⟨b, w', hrun, hstill, hc⟩ := World.install_run obstruct hv.open hg
    rw [hrun]
    exact hd.mild hstill.toMild fun d hmem _ =>
      (hd d hmem).coherent_of_marked fun hm => (hc d.ref none hm).1
  | uninstall v =>
    obtain ⟨hstill, hc⟩ := World.uninstall_run w v
    exact hd.mild hstill.toMild fun d _ => hc d.ref
  | other frame nodes lists =>
    refine hd.frame frame (fun d hmem name _ => ?_) (fun d hmem name l _ => ?_)
      fun d hmem hc => ?_
    · rw [nodes d hmem]
    · exact lists d hmem name l
    · exact hc.of_carried frame (nodes d hmem)

end Meddles

namespace Meddling

theorem trans (h : Meddling V root w w₁) (h' : Meddling V root w₁ w') : Meddling V root w w' := by
  induction h' with
  | none => exact h
  | more _ hstep ih => exact ih.more hstep

/-- **A history leaves alone what it must.** -/
theorem frame (hV : Lasting V) (h : Meddling V root w w') : World.Frame V w w' := by
  induction h with
  | none => exact .refl V w
  | more _ hstep ih => exact ih.trans (hstep.frame hV)

/-- **A history keeps a document.** -/
theorem fits (h : Meddling V root w w') (hd : root.Fits D w) : root.Fits D w' := by
  induction h with
  | none => exact hd
  | more _ hstep ih => exact hstep.fits ih

end Meddling

/-- **The scene of a walk stays as it is**, whatever others do that leave the walker and its token
alone. -/
theorem Scene.meddling {κ : Type} {X : Cast} {strict : Bool} {e : Event}
    (he : e.entersNode = true) {pins : List Pin} {h : Hold}
    (hs : Scene X strict D (root.entered e : Agenda κ) pins h w) (hd : root.Fits D w)
    (hm : Meddling X.Intact root w w') :
    Scene X strict D (root.entered e : Agenda κ) pins h w' := by
  have hf := hm.frame X.lasting_intact
  exact {
    assembled := hs.assembled.frame hf fun v hv => .inl hv
    held := hs.held.frame hf (hf.carried _ (.inr rfl))
    pinned := fun p hp => (hs.pinned p hp).frame hf
    fits := (hm.fits hd).entered he }

/-- **A step of one walk is a step of others to another one**, unless that relies on the token of
the first. Putting a guard on a value is a step of others as well. -/
theorem World.Footstep.meddles {k : Ref .token} (h : w.Footstep k w') (hV : Lasting V)
    (hk : ¬ V (.token k)) : Meddles V root w w' := by
  refine .other { h.toFrame with carried := ?_ }
    (fun d _ => World.carried_of_nodes h.sameNodes d.ref)
    fun d _ name l _ => by simp [World.items, h.lists]
  intro v hv
  rcases hV v hv with hs | ⟨k', rfl⟩
  · exact h.carried v hs
  · refine h.others k' ?_
    rintro rfl
    exact hk hv

end GuardedWalk
