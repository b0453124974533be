import GuardedWalk.Proofs.Walk.Traversal

/-!
# A walk goes through its agenda

Each node hands on its parts, and each part is announced by an entry method of the walker. By
induction on the agenda a walk lets others hear of what is on the agenda.

## Main definitions

* `GuardedWalk.Agenda.items` — what is announced on the outside of an agenda, with what others hear
  of it.
* `GuardedWalk.Setting.Plays` — each announcement on the outside tells what it should.

## Main results

* `GuardedWalk.Setting.Delivers.handOnAll` — the parts of a node of a document.
* `GuardedWalk.Setting.Delivers.perform` — what foreign code does that follows an agenda.
* `GuardedWalk.Setting.Tells.entered` — an announcement around what its source hands on.
* `GuardedWalk.Setting.Hosts.walk` — what a walk tells that goes through its agenda.
-/

set_option autoImplicit false

namespace GuardedWalk

namespace Agenda

variable {κ : Type}

/-- What is announced on the outside of an agenda, with what others hear of it. -/
def items (X : Cast) : Agenda κ → List ((Event × List Value) × List (Occasion κ))
  | done => []
  | ask _ rest => rest.items X
  | entry e args _ inner rest => ((e, args), X.around e args (inner.occasions X)) :: rest.items X

theorem map_items (X : Cast) (A : Agenda κ) : (A.items X).map Prod.fst = A.calls := by
  induction A with
  | done => rfl
  | ask c rest ih => exact ih
  | entry e args source inner rest _ ih => simp [items, calls, ih]

/-- If nothing is asked on the outside, others hear of the announcements there and of nothing
else. -/
theorem AsksNothing.occasions {X : Cast} {A : Agenda κ} (h : A.AsksNothing) :
    A.occasions X = (A.items X).flatMap Prod.snd := by
  induction A with
  | done => rfl
  | ask c rest ih => exact h.elim
  | entry e args source inner rest _ ih => simp [Agenda.occasions, items, ih h]

end Agenda

namespace Setting

open Walk (Steps)

variable {ε κ : Type} {Z : Setting ε κ} {F : Foreign ε κ} {S : Surroundings ε κ}
  {pins : List Pin} {h : Hold} {s : Ref .session} {n : Nat} {L told told' : List (Occasion κ)}
  {σ : Moment ε κ} {E : List (Occasion κ) → Moment ε κ → Prop}

/-! ## Parts of a node -/

section Parts

variable {r : Ref .node} {c : DocumentClass} {content : String → Document.Content}

/-- The fields of a node contain what they should, throughout a walk. -/
def Keeps (Z : Setting ε κ) (r : Ref .node) (content : String → Document.Content) (part : Part) :
    Prop := ∀ pins h w, Z.Scene pins h w → part.Kept Z.lists w r content

theorem Keeps.fieldOf {part : Part} (hk : Z.Keeps r content part) {field : String}
    (hf : field ∈ part.fields) {w : World ε} (hw : Z.Scene pins h w) :
    w.fieldOf r field = (content field).single := by
  have hkeeps := (hk pins h w hw).keeps field hf
  cases hc : content field with
  | value v =>
    rw [hc] at hkeeps
    exact hkeeps
  | list l vs =>
    rw [hc] at hkeeps
    exact hkeeps.1

/-- The elements of a list are handed on from a place on. -/
theorem Delivers.handOver (hZ : Z.Hosts F S) {field : String} {l : Ref .list} {vs : List Value}
    {e : Event} (hk : Z.Keeps r content (.each field e)) (hl : content field = .list l vs)
    (is : List ((Event × List Value) × List (Occasion κ))) (i : Nat)
    (hi : is.map Prod.fst = (vs.drop i).map fun v => (e, [v]))
    (his : ∀ p ∈ is, Z.Delivers S pins h
      (Walk.send (.walker Z.cast.walker) (.entry p.1.1) p.1.2) p.2) :
    Z.Delivers S pins h (Routine.invoke (.each (.list l i) (.handOver (.walker Z.cast.walker) e)))
      (is.flatMap Prod.snd) := by
  have hitems : ∀ pins h w, Z.Scene pins h w → w.items l = vs := by
    intro pins h w hw
    have hkeeps := (hk pins h w hw).keeps field (by simp [Part.fields])
    rw [hl] at hkeeps
    exact hkeeps.2.2
  -- on what is left to be handed on, which shrinks as the place in the list moves on
  induction is generalizing i with
  | nil =>
    intro L σ hg
    refine .call hg hZ.toBears rfl rfl going_returned fun σ₁ hg₁ => ?_
    refine .bind (hg₁.look hZ.toBears (r := .ok none) (fun w hw => ?_)
      fun σ₂ hg₂ => .pure ⟨hg₂, rfl⟩)
    have hlen : vs.length ≤ i := List.drop_eq_nil_iff.1 (List.map_eq_nil_iff.1 hi.symm)
    rw [World.advance_list, hitems _ _ w hw, List.getElem?_eq_none hlen]
    rfl
  | cons p rest ih =>
    obtain ⟨v, vs', hdrop, hp, hrest⟩ : ∃ v vs', vs.drop i = v :: vs' ∧ p.1 = (e, [v]) ∧
        rest.map Prod.fst = vs'.map fun v => (e, [v]) := by
      obtain ⟨v, vs', hdrop, hv, hvs⟩ := List.map_eq_cons_iff.1 hi.symm
      exact ⟨v, vs', hdrop, hv.symm, hvs.symm⟩
    have hv : vs[i]? = some v := by
      rw [← List.head?_drop, hdrop]
      rfl
    have hnext : vs.drop (i + 1) = vs' := by
      rw [← List.tail_drop, hdrop]
      rfl
    have hfirst : Z.Delivers S pins h
        (Walk.takeTurn v (.handOver (.walker Z.cast.walker) e)) p.2 := by
      have hone := his p List.mem_cons_self
      rw [hp] at hone
      exact hone
    intro L σ hg
    refine .call hg hZ.toBears rfl rfl going_returned fun σ₁ hg₁ => ?_
    refine .bind (hg₁.look hZ.toBears (r := .ok (some (v, .list l (i + 1)))) (fun w hw => ?_)
      fun σ₂ hg₂ => ?_)
    · rw [World.advance_list, hitems _ _ w hw, hv]
      rfl
    · exact Delivers.bind hfirst (fun _ => ih (i + 1) (by rw [hrest, hnext])
        fun q hq => his q (List.mem_cons_of_mem _ hq)) L σ₂ hg₂

/-- One part of a node is handed on. -/
theorem Delivers.handOn (hZ : Z.Hosts F S) {part : Part} (hk : Z.Keeps r content part)
    {is : List ((Event × List Value) × List (Occasion κ))}
    (hi : is.map Prod.fst = part.handed content)
    (his : ∀ p ∈ is, Z.Delivers S pins h
      (Walk.send (.walker Z.cast.walker) (.entry p.1.1) p.1.2) p.2) :
    Z.Delivers S pins h (Walk.handOn r (.walker Z.cast.walker) part) (is.flatMap Prod.snd) := by
  intro L σ hg
  cases part with
  | each field e =>
    obtain ⟨l, vs, hl⟩ := (hk _ _ _ hg.scene).list field e rfl
    refine .bind (hg.read hZ.toBears fun w σ₁ hw hg₁ => ?_)
    have hfield : w.fieldOf r field = .list l := by
      rw [hk.fieldOf (by simp [Part.fields]) hw, hl]
      rfl
    simp only [hfield]
    refine .bind (hg₁.look hZ.toBears (r := .ok (.list l 0)) (fun w _ => ?_) fun σ₂ hg₂ => ?_)
    · simp only [World.begin, World.iterable, World.iterableWithin]
      rfl
    · refine Delivers.handOver hZ hk hl is 0 ?_ his L σ₂ hg₂
      rw [hi]
      simp [Part.handed, hl, Document.Content.elements]
  | optional field e =>
    refine .bind (hg.read hZ.toBears fun w σ₁ hw hg₁ => ?_)
    have hfield : w.fieldOf r field = (content field).single :=
      hk.fieldOf (by simp [Part.fields]) hw
    simp only [hfield]
    by_cases hnone : (content field).single = .none
    · rw [Part.handed, if_pos hnone] at hi
      obtain rfl := List.map_eq_nil_iff.1 hi
      simp only [if_pos hnone]
      exact .pure ⟨hg₁, rfl⟩
    · rw [Part.handed, if_neg hnone] at hi
      obtain ⟨p, rfl, hp⟩ := List.map_eq_singleton_iff.1 hi
      have hone := his p List.mem_cons_self L σ₁ hg₁
      rw [hp] at hone
      simp only [if_neg hnone, List.flatMap_singleton]
      exact hone
  | always e fields =>
    refine .bind (hg.read hZ.toBears fun w σ₁ hw hg₁ => ?_)
    obtain ⟨p, rfl, hp⟩ := List.map_eq_singleton_iff.1 hi
    have hfields : fields.map (w.fieldOf r) = fields.map fun field => (content field).single :=
      List.map_congr_left fun field hf => hk.fieldOf (by simpa [Part.fields] using hf) hw
    have hone := his p List.mem_cons_self L σ₁ hg₁
    rw [hp] at hone
    simp only [hfields, List.flatMap_singleton]
    exact hone

/-- The parts of a node are handed on one after the other. -/
theorem Delivers.handOnAll (hZ : Z.Hosts F S) (parts : List Part)
    (hk : ∀ part ∈ parts, Z.Keeps r content part)
    {is : List ((Event × List Value) × List (Occasion κ))}
    (hi : is.map Prod.fst = parts.flatMap (Part.handed content))
    (his : ∀ p ∈ is, Z.Delivers S pins h
      (Walk.send (.walker Z.cast.walker) (.entry p.1.1) p.1.2) p.2) :
    Z.Delivers S pins h (Walk.handOnAll r (.walker Z.cast.walker) parts)
      (is.flatMap Prod.snd) := by
  induction parts generalizing is with
  | nil =>
    obtain rfl := List.map_eq_nil_iff.1 hi
    exact .pure _
  | cons part rest ih =>
    rw [List.flatMap_cons] at hi
    obtain ⟨first, others, rfl, hfirst, hothers⟩ := List.map_eq_append_iff.1 hi
    rw [List.flatMap_append]
    refine Delivers.bind (.handOn hZ (hk part List.mem_cons_self) hfirst
      fun p hp => his p (List.mem_append_left _ hp)) fun _ => ?_
    exact ih (fun part hp => hk part (List.mem_cons_of_mem _ hp)) hothers
      fun p hp => his p (List.mem_append_right _ hp)

end Parts

/-! ## Blocks between announcements -/

/-- Each announcement on the outside of an agenda tells what it should, during a walk. -/
def Plays (Z : Setting ε κ) (S : Surroundings ε κ) (A : Agenda κ) : Prop :=
  ∀ s n pins, ∀ p ∈ A.items Z.cast, Z.Delivers S pins (.owned s n)
    (Walk.send (.walker Z.cast.walker) (.entry p.1.1) p.1.2) p.2

/-- The session in flight remembers an outline table. -/
theorem Going.enterTable (hg : Z.Going pins (.owned s n) L σ) (hZ : Z.Hosts F S) (table : Value)
    {Q : Except Failure Unit → Moment ε κ → Prop}
    (hQ : ∀ σ', Z.Going pins (.owned s n) L σ' → Q (.ok ()) σ') :
    S.Yields Z.rule σ (Walk.enterTable F (.walker Z.cast.walker) table) Q := by
  refine .bind (hg.own hZ.toBears (fun w hw => World.ownValue_of_carried hw.assembled.ownership)
    fun σ₁ hg₁ => ?_)
  refine .bind (hg₁.readAttr hZ.toBears (fun w hw => member_session hw) fun σ₂ hg₂ => ?_)
  refine hg₂.step hZ fun w hw _ => ⟨pins, .owned s n, ?_⟩
  rw [Scene.assignTable_run]
  have hf := Session.amends_setTable table
  obtain ⟨x, -, -, -, -, threadName, hready⟩ := hw.held.shows
  exact ⟨Scene.modifySession hw s hf, .of_still (World.still_modifySession w s hf) rfl
    (Store.size_modify_of_lt _ hready.stored _), hQ⟩

/-- The block of an event that enters a node comes to how the node is asked for its traversal. -/
theorem Going.enteringBlock (hg : Z.Going pins (.owned s n) L σ) (hZ : Z.Hosts F S) {e : Event}
    (he : e.entersNode = true) {v : Value} {Q : Outcome → Moment ε κ → Prop}
    (hQ : ∀ a b σ, Q (.ok a) σ → Q (.ok b) σ)
    (hb : ∀ σ', Z.Going pins (.owned s n) L σ' →
      S.Includes (Walk.runBlock F (.walker Z.cast.walker) e [v]) σ
        (Walk.send v .accept [.walker Z.cast.walker]) σ' →
      S.Yields Z.rule σ' (Walk.send v .accept [.walker Z.cast.walker]) Q) :
    S.Yields Z.rule σ (Walk.runBlock F (.walker Z.cast.walker) e [v]) Q := by
  cases e
  case outlineTable =>
    refine .bind_within (hg.enterTable hZ v fun σ₁ hg₁ hin₁ => ?_)
    refine .bind ((hb σ₁ hg₁ (hin₁.trans (.first _))).mono fun r σ₂ hr => ?_)
    cases r with
    | ok a => exact .pure (hQ a _ _ hr)
    | error f => exact hr
  case stepResult => cases he
  all_goals exact hb σ hg (.refl _ _)

/-- The same, for what is told. -/
theorem Delivers.enteringBlock (hZ : Z.Hosts F S) {e : Event} (he : e.entersNode = true) {v : Value}
    (ht : Z.Delivers S pins (.owned s n) (Walk.send v .accept [.walker Z.cast.walker]) told) :
    Z.Delivers S pins (.owned s n) (Walk.runBlock F (.walker Z.cast.walker) e [v]) told :=
  fun L _ hg => hg.enteringBlock hZ he (fun _ _ _ hr => hr) fun σ₁ hg₁ _ => ht L σ₁ hg₁

/-- Foreign code that follows an agenda lets others hear of what is on it. -/
theorem Delivers.perform (hZ : Z.Hosts F S) {A : Agenda κ} (hA : Z.Plays S A)
    (hasks : ∀ c ∈ A.asks, c ∈ Z.root.asks) :
    Z.Delivers S pins (.owned s n) (A.perform (.walker Z.cast.walker)) (A.occasions Z.cast) := by
  induction A with
  | done => exact .pure _
  | ask c rest ih =>
    have hone : Z.Delivers S pins (.owned s n) (Routine.invoke (.foreign c)) [.asked c] := by
      intro L σ hg
      refine (hZ.answers pins _ L σ c (hasks c List.mem_cons_self) hg).mono ?_
      rintro r σ₁ ⟨hg₁, hr⟩
      have hfails : Z.fails L (.asked c) = Z.verdict (L ++ [.asked c]) := rfl
      simp only [tell, hfails]
      cases hv : Z.verdict (L ++ [.asked c]) with
      | none => exact ⟨hg₁, hr.trans hv⟩
      | some f => exact ⟨hg₁, hr.trans hv⟩
    exact hone.bind fun _ => ih hA fun d hd => hasks d (List.mem_cons_of_mem c hd)
  | entry e args source inner rest _ ih =>
    refine Delivers.bind (hA s n pins _ List.mem_cons_self) fun _ => ?_
    exact ih (fun s n pins p hp => hA s n pins p (List.mem_cons_of_mem _ hp))
      fun d hd => hasks d (List.mem_append_right _ hd)

/-- Entry methods are called, one after the other. -/
def enterAll (self : Value) : List (Event × List Value) → Steps ε κ Value
  | [] => return .none
  | p :: rest => do
    let _ ← Walk.send self (.entry p.1) p.2
    enterAll self rest

theorem stepResultBlock_eq (self : Value) {args : List Value}
    (hlen : args.length = Event.stepResult.params.length) :
    (Walk.stepResultBlock self args : Steps ε κ Value) = enterAll self (resultCalls args) := by
  obtain ⟨keyword, stepMatch, multilineArg, status, exception, sourceIndent, background, rfl⟩ :=
    Event.args_of_stepResult hlen
  by_cases hm : multilineArg = .none <;> by_cases he : exception = .none <;>
    simp only [Walk.stepResultBlock, resultCalls, hm, he, ne_eq, not_true_eq_false,
      not_false_eq_true, if_true, if_false, List.append_nil, List.nil_append, List.cons_append,
      enterAll]

theorem Delivers.enterAll {is : List ((Event × List Value) × List (Occasion κ))}
    (his : ∀ p ∈ is, Z.Delivers S pins h
      (Walk.send (.walker Z.cast.walker) (.entry p.1.1) p.1.2) p.2) :
    Z.Delivers S pins h (enterAll (.walker Z.cast.walker) (is.map Prod.fst))
      (is.flatMap Prod.snd) := by
  induction is with
  | nil => exact .pure _
  | cons p rest ih =>
    rw [List.flatMap_cons]
    exact (his p List.mem_cons_self).bind fun _ =>
      ih fun q hq => his q (List.mem_cons_of_mem p hq)

/-- The result of a step is announced around its name, its argument and its exception. -/
theorem Delivers.stepResultBlock {args : List Value}
    (hlen : args.length = Event.stepResult.params.length)
    {is : List ((Event × List Value) × List (Occasion κ))}
    (hi : is.map Prod.fst = resultCalls args)
    (his : ∀ p ∈ is, Z.Delivers S pins h
      (Walk.send (.walker Z.cast.walker) (.entry p.1.1) p.1.2) p.2) :
    Z.Delivers S pins h (Walk.stepResultBlock (.walker Z.cast.walker) args)
      (is.flatMap Prod.snd) := by
  rw [stepResultBlock_eq _ hlen, ← hi]
  exact .enterAll his

/-! ## Announcements -/

/-- A node of a document is entered: the walker hands on its parts. -/
theorem Delivers.written (hZ : Z.Hosts F S) {e : Event} (he : e.entersNode = true) {r : Ref .node}
    {c : DocumentClass} {content : String → Document.Content} {inner : Agenda κ}
    (hstands : ∀ pins h w, Z.Scene pins h w → (w.nodes.get r).cls = .document c ∧
      w.Marked r none ∧ ∀ part ∈ c.parts, part.Kept Z.lists w r content)
    (hquiet : inner.AsksNothing) (hcalls : inner.calls = c.parts.flatMap (Part.handed content))
    (hinner : Z.Plays S inner) :
    Z.Delivers S pins (.owned s n) (Walk.runBlock F (.walker Z.cast.walker) e [.node r])
      (inner.occasions Z.cast) := by
  refine .enteringBlock hZ he (.accept hZ
    (fun pins h w hw => (hstands pins h w hw).2.1) fun pins L σ hg => ?_)
  refine .bind (hg.read hZ.toBears fun w σ₁ hw hg₁ => ?_)
  simp only [(hstands _ _ w hw).1]
  rw [hquiet.occasions]
  exact Delivers.handOnAll hZ c.parts
    (fun part hp pins h w hw => (hstands pins h w hw).2.2 part hp)
    ((inner.map_items _).trans hcalls) (hinner s n pins) L σ₁ hg₁

/-- A node with a traversal of its own is entered, which follows an agenda. -/
theorem Delivers.coded (hZ : Z.Hosts F S) {e : Event} (he : e.entersNode = true) {r : Ref .node}
    {own : Option (Ref .node)} {inner : Agenda κ}
    (hstands : ∀ pins h w, Z.Scene pins h w →
      (own = none → ∃ c, (w.nodes.get r).cls = .foreign c) ∧ w.Marked r own)
    (htraversal : F.traversal Z.cast.thread r (.walker Z.cast.walker) own =
      inner.perform (.walker Z.cast.walker))
    (hasks : ∀ c ∈ inner.asks, c ∈ Z.root.asks) (hinner : Z.Plays S inner) :
    Z.Delivers S pins (.owned s n) (Walk.runBlock F (.walker Z.cast.walker) e [.node r])
      (inner.occasions Z.cast) := by
  refine .enteringBlock hZ he (.accept hZ
    (fun pins h w hw => (hstands pins h w hw).2) fun pins => ?_)
  cases own with
  | some own =>
    rw [show Walk.ownWay F Z.cast.thread r (.walker Z.cast.walker) (some own) =
      inner.perform (.walker Z.cast.walker) from htraversal]
    exact .perform hZ hinner hasks
  | none =>
    intro L σ hg
    refine .bind (hg.read hZ.toBears fun w σ₁ hw hg₁ => ?_)
    obtain ⟨c, hc⟩ := (hstands _ _ w hw).1 rfl
    simp only [hc]
    rw [show F.accept Z.cast.thread false r (.walker Z.cast.walker) =
      inner.perform (.walker Z.cast.walker) from htraversal]
    exact Delivers.perform hZ hinner hasks L σ₁ hg₁

/-- **An announcement is made around what its source hands on.** -/
theorem Tells.entered (hg : Z.Going pins h L σ) (hZ : Z.Hosts F S) (ht : Z.Timed h)
    (hE : Z.Closes S pins h E) {e : Event} (hannounce : e ≠ .announce) {args : List Value}
    {source : Option Source} {inner rest : Agenda κ}
    (hfits : ∀ pins h w, Z.Scene pins h w →
      (Agenda.entry e args source inner rest).Fits Z.strict Z.lists w)
    (hcoded : ∀ r own, source = some (.coded r own) →
      F.traversal Z.cast.thread r (.walker Z.cast.walker) own =
        inner.perform (.walker Z.cast.walker))
    (hasks : ∀ c ∈ inner.asks, c ∈ Z.root.asks) (hinner : Z.Plays S inner) :
    Z.Tells S σ L (Walk.send (.walker Z.cast.walker) (.entry e) args)
      (Z.cast.around e args (inner.occasions Z.cast)) E := by
  obtain ⟨hlen, -, hstands, -⟩ := hfits _ _ _ hg.scene
  have hargs : ∀ v ∈ args.head?, Z.Harmless v := fun v hv pins h w hw =>
    (hfits pins h w hw).2.1 v hv
  -- the kind of the source is read off the scene of this moment, and holds in all others as well
  cases hstands with
  | leaf single => exact .leaf hg hZ ht hE e hlen hannounce single hargs
  | @written r c content _ enters given cls marked kept quiet calls =>
    have hwritten : ∀ pins h w, Z.Scene pins h w → (w.nodes.get r).cls = .document c ∧
        w.Marked r none ∧ ∀ part ∈ c.parts, part.Kept Z.lists w r content := by
      intro pins h w hw
      obtain ⟨-, -, hstands, -⟩ := hfits pins h w hw
      cases hstands with
      | written _ _ cls marked kept _ _ => exact ⟨cls, marked, kept⟩
    subst given
    refine .composite hg hZ ht hE e hlen (Event.isComposite_of_entersNode enters) hargs
      fun row s => ?_
    obtain ⟨s', n, hn⟩ := h.inner_owned s
    rw [hn]
    exact .written hZ enters hwritten quiet calls hinner
  | @coded r own _ enters given cls marked =>
    have hforeign : ∀ pins h w, Z.Scene pins h w →
        (own = none → ∃ c, (w.nodes.get r).cls = .foreign c) ∧ w.Marked r own := by
      intro pins h w hw
      obtain ⟨-, -, hstands, -⟩ := hfits pins h w hw
      cases hstands with
      | coded _ _ cls marked => exact ⟨cls, marked⟩
    subst given
    refine .composite hg hZ ht hE e hlen (Event.isComposite_of_entersNode enters) hargs
      fun row s => ?_
    obtain ⟨s', n, hn⟩ := h.inner_owned s
    rw [hn]
    exact .coded hZ enters hforeign (hcoded r own rfl) hasks hinner
  | result event quiet calls =>
    subst event
    refine .composite hg hZ ht hE .stepResult hlen rfl hargs fun row s => ?_
    obtain ⟨s', n, hn⟩ := h.inner_owned s
    rw [hn, quiet.occasions]
    exact .stepResultBlock hlen ((inner.map_items _).trans calls) (hinner s' n _)

/-! ## Whole agendas -/

/-- What is said of an agenda that is part of the one that the walk goes through. -/
structure Within (Z : Setting ε κ) (F : Foreign ε κ) (A : Agenda κ) : Prop where
  fits : ∀ pins h w, Z.Scene pins h w → A.Fits Z.strict Z.lists w
  coded : A.Coded F Z.cast.thread (.walker Z.cast.walker)
  asks : ∀ c ∈ A.asks, c ∈ Z.root.asks

theorem within_root (hZ : Z.Hosts F S) : Z.Within F Z.root :=
  ⟨fun _ _ _ hw => hw.fits, hZ.coded, fun _ hc => hc⟩

namespace Within

variable {e : Event} {args : List Value} {source : Option Source} {A B : Agenda κ}

theorem inner (hA : Z.Within F (.entry e args source A B)) : Z.Within F A :=
  ⟨fun pins h w hw => (hA.fits pins h w hw).2.2.2.1, hA.coded.2.1,
    fun c hc => hA.asks c (List.mem_append_left _ hc)⟩

theorem rest (hA : Z.Within F (.entry e args source A B)) : Z.Within F B :=
  ⟨fun pins h w hw => (hA.fits pins h w hw).2.2.2.2, hA.coded.2.2,
    fun c hc => hA.asks c (List.mem_append_right _ hc)⟩

/-- By induction on the agenda, each announcement tells what it should. -/
theorem plays {A : Agenda κ} (hA : Z.Within F A) (hZ : Z.Hosts F S) : Z.Plays S A := by
  induction A with
  | done => simp [Plays, Agenda.items]
  | ask c rest ih =>
    exact ih ⟨hA.fits, hA.coded, fun d hd => hA.asks d (List.mem_cons_of_mem c hd)⟩
  | entry e args source inner rest ihInner ih =>
    intro s n pins p hp
    rcases List.mem_cons.1 hp with rfl | hp
    · intro L σ hg
      by_cases hannounce : e = .announce
      · subst hannounce
        obtain ⟨hlen, -, hstands, -⟩ := hA.fits _ _ _ hg.scene
        cases hstands with
        | leaf single =>
          exact .announce hg hZ hlen fun v hv pins h w hw => (hA.fits pins h w hw).2.1 v hv
        | written enters => cases enters
        | coded enters => cases enters
        | result event => cases event
      · exact .entered hg hZ (timed_owned s n) (closes hZ pins _ (by simp)) hannounce hA.fits
          hA.coded.1 hA.inner.asks (ihInner hA.inner)
    · exact ih hA.rest s n pins p hp

end Within

/-- A walk that enters what is on its agenda tells what is on it. -/
theorem Tells.root (hg : Z.Going pins h L σ) (hZ : Z.Hosts F S) (ht : Z.Timed h)
    (hE : Z.Closes S pins h E) {e : Event} (hannounce : e ≠ .announce) {args : List Value}
    {source : Option Source} {inner : Agenda κ}
    (hroot : Z.root = .entry e args source inner .done) :
    Z.Tells S σ L (Walk.send (.walker Z.cast.walker) (.entry e) args) (Z.root.occasions Z.cast)
      E := by
  have hwithin : Z.Within F (.entry e args source inner .done) := hroot ▸ within_root hZ
  rw [hroot, Agenda.occasions, Agenda.occasions, List.append_nil]
  exact .entered hg hZ ht hE hannounce hwithin.fits hwithin.coded.1 hwithin.inner.asks
    (hwithin.inner.plays hZ)

/-- What others hear of a walk through its agenda, and how the walk fails if it does. They hear of
nothing if it cannot begin; otherwise of all that is on the agenda, up to the first failure. -/
def outcome (Z : Setting ε κ) (L : List (Occasion κ)) : List (Occasion κ) × Option Failure :=
  if Z.cast.timeout.outlastsTime then (L, some .numberTooLarge)
  else Z.tell L (Z.root.occasions Z.cast)

/-- **A walk through its agenda comes to an end**, and what others hear of until then is known. -/
theorem Hosts.walk (hZ : Z.Hosts F S) (hlasts : Z.Lasts) {e : Event} (hannounce : e ≠ .announce)
    {args : List Value} {source : Option Source} {inner : Agenda κ}
    (hroot : Z.root = .entry e args source inner .done) (hg : Z.Going pins .idle L σ) :
    S.Yields Z.rule σ (Walk.send (.walker Z.cast.walker) (.entry e) args) fun r σ' =>
      Z.Going pins .idle (Z.outcome L).1 σ' ∧ failure? r = (Z.outcome L).2 := by
  cases ht : Z.cast.timeout.outlastsTime with
  | true =>
    have hlen : args.length = e.params.length := by
      have hfits := hg.scene.fits
      rw [hroot] at hfits
      exact hfits.1
    refine (Ends.entry_untimed hZ ht e hlen hannounce L σ hg).mono ?_
    rintro _ σ' ⟨rfl, hg'⟩
    simp only [outcome, ht, if_true]
    exact ⟨hg', rfl⟩
  | false =>
    have htimed : Z.Timed .idle := Value.isTimeout_of_number hg.scene.assembled.timeout ht
    simp only [outcome, ht, Bool.false_eq_true, if_false]
    exact Tells.root hg hZ htimed (closes hZ pins .idle fun _ => hlasts) hannounce hroot

end Setting

end GuardedWalk
