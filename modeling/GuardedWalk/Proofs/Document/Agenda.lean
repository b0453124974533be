import GuardedWalk.Proofs.Agenda

/-!
# The agenda of a document

What a walk comes across in a document is read off the document: nodes hand on what their fields
contain, and nobody is asked anything.

## Main definitions

* `GuardedWalk.Document.agenda` — what comes across in the parts of a node.
* `GuardedWalk.Document.entered` — what a walk comes across that enters a node.

## Main results

* `GuardedWalk.Document.notices_agenda` — the agenda of a document says what the document says.
* `GuardedWalk.Document.Fits.entered` — the objects of a document stand for its agenda.
-/

set_option autoImplicit false

namespace GuardedWalk

namespace Document

variable {ε κ : Type}

/-- What a field of a node contains. -/
def content (d : Document) (field : String) : Content :=
  (d.contents.lookup field).getD (.value .none)

/-- A node of a document hands on what its fields contain. -/
def source (d : Document) : Source := .written d.ref d.cls d.content

mutual

/-- What comes across in the parts of a node. -/
def agenda : Document → Agenda κ
  | features _ _ ds => agendaOf .feature ds
  | feature _ name _ elements b c t =>
    agendaIf .comment c ++ agendaIf .tags t ++ .leaf .featureName [name] ++
      agendaIf .background b ++ agendaOf .featureElement elements
  | comment _ _ lines => .leaves .commentLine lines
  | tags _ _ names => .leaves .tagName names
  | steps _ _ ds => agendaOf .step ds
  | step _ keyword stepMatch argument status exception sourceIndent inBackground =>
    .entry .stepResult
      [keyword, stepMatch, valueIf argument, status, exception, sourceIndent, inBackground]
      (some .result)
      (.leaf .stepName [keyword, stepMatch, status, sourceIndent, inBackground] ++
        agendaIf .multilineArg argument ++
        if exception = .none then .done else .leaf .exception [exception, status])
      .done
  | background _ heading ss =>
    .leaf .backgroundName heading.values ++
      .entry .steps [ss.value] (some ss.source) (agenda ss) .done
  | scenario _ heading ss c t =>
    agendaIf .comment c ++ agendaIf .tags t ++ .leaf .scenarioName heading.values ++
      .entry .steps [ss.value] (some ss.source) (agenda ss) .done
  | scenarioOutline _ heading ss c t es =>
    agendaIf .comment c ++ agendaIf .tags t ++ .leaf .scenarioName heading.values ++
      .entry .steps [ss.value] (some ss.source) (agenda ss) .done ++
      .entry .examplesArray [es.value] (some es.source) (agenda es) .done
  | examplesArray _ _ ds => agendaOf .examples ds
  | examples _ keyword name d =>
    .leaf .examplesName [keyword, name] ++
      .entry .outlineTable [d.value] (some d.source) (agenda d) .done
  | tableCell _ v status => .leaf .tableCellValue [v, status]
  | tableRow _ _ ds => agendaOf .tableCell ds
  | table _ _ ds => agendaOf .tableRow ds
  | outlineTable _ _ ds => agendaOf .tableRow ds
  | pyString _ text => .leaf .pyString [text]

/-- What comes across in nodes that are announced one after the other under an event. -/
def agendaOf (e : Event) : List Document → Agenda κ
  | [] => .done
  | d :: rest => .entry e [d.value] (some d.source) (agenda d) (agendaOf e rest)

/-- What comes across in a node that may be absent and is announced under an event. -/
def agendaIf (e : Event) : Option Document → Agenda κ
  | none => .done
  | some d => .entry e [d.value] (some d.source) (agenda d) .done

end

/-! ### What the agenda of a document says -/

theorem notices_leaves (e : Event) (vs : List Value) :
    (Agenda.leaves e vs : Agenda κ).notices = vs.flatMap fun v => around e [v] [] := by
  induction vs with
  | nil => rfl
  | cons v rest ih => simp [Agenda.leaves, Agenda.notices, ih]

theorem notices_leaf (e : Event) (args : List Value) :
    (Agenda.leaf e args : Agenda κ).notices = around e args [] := by
  simp [Agenda.leaf, Agenda.notices]

mutual

/-- **The agenda of a document says what the document says.** -/
theorem notices_agenda : ∀ d : Document, (d.agenda : Agenda κ).notices = d.inside
  | .features _ _ ds | .steps _ _ ds | .examplesArray _ _ ds | .tableRow _ _ ds | .table _ _ ds
  | .outlineTable _ _ ds => notices_agendaOf _ ds
  | .feature _ name _ elements b c t => by
    simp [agenda, inside, notices_leaf, notices_agendaIf, notices_agendaOf]
  | .comment _ _ lines => notices_leaves _ lines
  | .tags _ _ names => notices_leaves _ names
  | .step _ _ _ argument _ exception _ _ => by
    have hlast : ∀ args, (if exception = .none then .done else .leaf .exception args :
        Agenda κ).notices = if exception = .none then [] else around .exception args [] := by
      intro args
      split
      · rfl
      · exact notices_leaf _ _
    simp [agenda, inside, Agenda.notices, notices_leaf, notices_agendaIf, hlast]
  | .background _ _ ss => by
    simp [agenda, inside, Agenda.notices, notices_leaf, notices_agenda ss]
  | .scenario _ _ ss c t => by
    simp [agenda, inside, Agenda.notices, notices_leaf, notices_agendaIf, notices_agenda ss]
  | .scenarioOutline _ _ ss c t es => by
    simp [agenda, inside, Agenda.notices, notices_leaf, notices_agendaIf, notices_agenda ss,
      notices_agenda es]
  | .examples _ _ _ rows => by
    simp [agenda, inside, Agenda.notices, notices_leaf, notices_agenda rows]
  | .tableCell _ _ _ => notices_leaf _ _
  | .pyString _ _ => notices_leaf _ _

theorem notices_agendaOf (e : Event) :
    ∀ ds : List Document, (agendaOf e ds : Agenda κ).notices = each e ds
  | [] => rfl
  | d :: rest => by
    simp [agendaOf, each, Agenda.notices, notices_agenda d, notices_agendaOf e rest]

theorem notices_agendaIf (e : Event) :
    ∀ o : Option Document, (agendaIf e o : Agenda κ).notices = ifPresent e o
  | none => rfl
  | some d => by simp [agendaIf, ifPresent, Agenda.notices, notices_agenda d]

end

/-! ### Nobody is asked anything -/

theorem isWritten_leaf (e : Event) (args : List Value) :
    (Agenda.leaf e args : Agenda κ).IsWritten := ⟨by simp, trivial, trivial⟩

theorem isWritten_leaves (e : Event) (vs : List Value) :
    (Agenda.leaves e vs : Agenda κ).IsWritten := by
  induction vs with
  | nil => trivial
  | cons v rest ih => exact ⟨by simp, trivial, ih⟩

theorem isWritten_entry (e : Event) (d : Document) {inner rest : Agenda κ}
    (h : inner.IsWritten) (h' : rest.IsWritten) :
    (Agenda.entry e [d.value] (some d.source) inner rest).IsWritten :=
  ⟨by simp [source], h, h'⟩

mutual

/-- Nobody is asked anything in a document, and no foreign code is run. -/
theorem isWritten_agenda : ∀ d : Document, (d.agenda : Agenda κ).IsWritten
  | .features _ _ ds | .steps _ _ ds | .examplesArray _ _ ds | .tableRow _ _ ds | .table _ _ ds
  | .outlineTable _ _ ds => isWritten_agendaOf _ ds
  | .feature _ name _ elements b c t => by
    simp [agenda, isWritten_leaf, isWritten_agendaIf, isWritten_agendaOf]
  | .comment _ _ lines => isWritten_leaves _ lines
  | .tags _ _ names => isWritten_leaves _ names
  | .step _ _ _ argument _ exception _ _ => by
    refine ⟨by simp, ?_, trivial⟩
    simp only [Agenda.isWritten_append]
    refine ⟨⟨isWritten_leaf _ _, isWritten_agendaIf _ argument⟩, ?_⟩
    split
    · trivial
    · exact isWritten_leaf _ _
  | .background _ _ ss => by
    simp [agenda, isWritten_leaf, source, isWritten_agenda ss, Agenda.IsWritten]
  | .scenario _ _ ss c t => by
    simp [agenda, isWritten_leaf, source, isWritten_agendaIf, isWritten_agenda ss,
      Agenda.IsWritten]
  | .scenarioOutline _ _ ss c t es => by
    simp [agenda, isWritten_leaf, source, isWritten_agendaIf, isWritten_agenda ss,
      isWritten_agenda es, Agenda.IsWritten]
  | .examples _ _ _ rows => by
    simp [agenda, isWritten_leaf, source, isWritten_agenda rows, Agenda.IsWritten]
  | .tableCell _ _ _ => isWritten_leaf _ _
  | .pyString _ _ => isWritten_leaf _ _

theorem isWritten_agendaOf (e : Event) :
    ∀ ds : List Document, (agendaOf e ds : Agenda κ).IsWritten
  | [] => trivial
  | d :: rest => isWritten_entry e d (isWritten_agenda d) (isWritten_agendaOf e rest)

theorem isWritten_agendaIf (e : Event) :
    ∀ o : Option Document, (agendaIf e o : Agenda κ).IsWritten
  | none => trivial
  | some d => isWritten_entry e d (isWritten_agenda d) trivial

end

/-! ### The objects of a document stand for its agenda -/

/-- The agenda of an announced node, around its parts. -/
def entered (e : Event) (d : Document) : Agenda κ :=
  .entry e [d.value] (some d.source) d.agenda .done

theorem isWritten_entered (e : Event) (d : Document) : (d.entered e : Agenda κ).IsWritten :=
  isWritten_entry e d d.isWritten_agenda trivial

theorem notices_entered (e : Event) (d : Document) :
    (d.entered e : Agenda κ).notices = around e [d.value] d.inside := by
  simp [entered, Agenda.notices, notices_agenda]

theorem calls_agendaOf (e : Event) (ds : List Document) :
    (agendaOf e ds : Agenda κ).calls = (ds.map value).map (fun v => (e, [v])) ∧
      (agendaOf e ds : Agenda κ).AsksNothing := by
  induction ds with
  | nil => exact ⟨rfl, trivial⟩
  | cons d rest ih => exact ⟨by simp [agendaOf, Agenda.calls, ih.1], ih.2⟩

theorem calls_agendaIf (e : Event) (o : Option Document) :
    (agendaIf e o : Agenda κ).calls = (if valueIf o = .none then [] else [(e, [valueIf o])]) ∧
      (agendaIf e o : Agenda κ).AsksNothing := by
  cases o with
  | none => exact ⟨rfl, trivial⟩
  | some d => exact ⟨by simp [agendaIf, Agenda.calls, valueIf, value], trivial⟩

theorem calls_leaves (e : Event) (vs : List Value) :
    (Agenda.leaves e vs : Agenda κ).calls = vs.map (fun v => (e, [v])) ∧
      (Agenda.leaves e vs : Agenda κ).AsksNothing := by
  induction vs with
  | nil => exact ⟨rfl, trivial⟩
  | cons v rest ih => exact ⟨by simp [Agenda.leaves, Agenda.calls, ih.1], ih.2⟩

theorem calls_leaf (e : Event) (args : List Value) :
    (Agenda.leaf e args : Agenda κ).calls = [(e, args)] ∧
      (Agenda.leaf e args : Agenda κ).AsksNothing := ⟨rfl, trivial⟩

/-- A node hands on what its class says, given what its fields contain. -/
theorem calls_agenda (d : Document) :
    (d.agenda : Agenda κ).calls = d.cls.parts.flatMap (Part.handed d.content) ∧
      (d.agenda : Agenda κ).AsksNothing := by
  cases d <;>
    simp [agenda, cls, DocumentClass.parts, DocumentClass.scenarioParts, Part.handed, content,
      contents, headingContents, scenarioContents, Content.single, Content.elements, calls_leaf,
      calls_leaves, calls_agendaOf, calls_agendaIf, Agenda.calls, Agenda.AsksNothing,
      List.lookup_cons, Heading.values]

variable {strict : Bool} {D : Ref .list → Prop} {w : World ε}

/-- The fields of a node of a document contain what is handed on. -/
theorem Stored.kept {d : Document} (h : Stored D w d) :
    ∀ part ∈ d.cls.parts, part.Kept D w d.ref d.content := by
  have hc := h.contents
  intro part hp
  refine ⟨?_, ?_⟩
  · clear h
    revert part
    cases d <;>
      simp_all [Document.cls, DocumentClass.parts, DocumentClass.scenarioParts, Part.fields,
        Document.content, Document.contents, headingContents, scenarioContents, List.lookup_cons]
  · rintro field e rfl
    revert hp
    cases d <;>
      simp [Document.cls, DocumentClass.parts, DocumentClass.scenarioParts, Document.content,
        Document.contents, headingContents, scenarioContents, List.lookup_cons]
    all_goals
      rintro rfl -
      simp

/-- Something stands behind the announcement of a node of a document. -/
theorem Stored.stands {d : Document} (h : Stored D w d) {e : Event}
    (he : e.entersNode = true) :
    Agenda.Stands D w e [d.value] (some d.source) (d.agenda : Agenda κ) :=
  .written he rfl h.cls h.marked h.kept d.calls_agenda.2 d.calls_agenda.1

/-- The objects of an announced node, and what comes after it. -/
theorem Stored.entry {d : Document} (h : Stored D w d) {e : Event} (he : e.entersNode = true)
    (hinner : (d.agenda : Agenda κ).Fits strict D w) {rest : Agenda κ}
    (hrest : rest.Fits strict D w) :
    (Agenda.entry e [d.value] (some d.source) d.agenda rest).Fits strict D w := by
  refine ⟨(Event.params_of_entersNode he).symm, fun v hv => ?_, h.stands he, hinner, hrest⟩
  obtain rfl : d.value = v := Option.some.inj hv
  refine World.Plain.guardable (fun r hr => ?_) strict
  obtain rfl : d.ref = r := Value.node.inj hr
  exact ⟨d.cls, h.cls⟩

/-- The objects of something announced that is no node. -/
theorem fits_leaf {e : Event} (single : e.isComposite = false) {args : List Value}
    (hlen : args.length = e.params.length) (hargs : ∀ v ∈ args.head?, w.Plain v) :
    (Agenda.leaf e args : Agenda κ).Fits strict D w :=
  ⟨hlen, fun v hv => (hargs v hv).guardable strict, .leaf single, trivial, trivial⟩

theorem fits_leaves {e : Event} (single : e.isComposite = false) (hlen : e.params.length = 1)
    {vs : List Value} (hvs : ∀ v ∈ vs, w.Plain v) :
    (Agenda.leaves e vs : Agenda κ).Fits strict D w := by
  induction vs with
  | nil => trivial
  | cons v rest ih =>
    refine ⟨hlen.symm, fun u hu => ?_, .leaf single, trivial,
      ih fun u hu => hvs u (List.mem_cons_of_mem v hu)⟩
    obtain rfl : v = u := Option.some.inj hu
    exact (hvs v List.mem_cons_self).guardable strict

/-- What the announcement of the result of a step encloses. -/
theorem stands_result (keyword stepMatch status exception sourceIndent inBackground : Value)
    (argument : Option Document) :
    Agenda.Stands D w .stepResult
      [keyword, stepMatch, valueIf argument, status, exception, sourceIndent, inBackground]
      (some .result)
      (.leaf .stepName [keyword, stepMatch, status, sourceIndent, inBackground] ++
        agendaIf .multilineArg argument ++
        if exception = .none then .done else .leaf .exception [exception, status] : Agenda κ) := by
  refine .result rfl ?_ ?_
  · by_cases he : exception = .none <;>
      simp [he, calls_leaf, calls_agendaIf, Agenda.AsksNothing]
  · by_cases he : exception = .none <;>
      simp [he, resultCalls, calls_leaf, calls_agendaIf, Agenda.calls]

mutual

/-- **The objects of a document stand for its agenda.** -/
theorem Fits.agenda :
    ∀ d : Document, d.Fits D w → (d.agenda : Agenda κ).Fits strict D w
  | .features r l ds, h | .steps r l ds, h | .examplesArray r l ds, h | .tableRow r l ds, h
  | .table r l ds, h | .outlineTable r l ds, h =>
    Fits.agendaOf rfl ds fun d hd => h d (by simp [all, hd])
  | .feature r name l es b c t, h => by
    have hleaf := (h _ (mem_all_self _)).leaves
    simp only [Document.agenda, Agenda.fits_append]
    exact ⟨⟨⟨⟨Fits.agendaIf rfl c fun d hd => h d (by simp [all, hd]),
      Fits.agendaIf rfl t fun d hd => h d (by simp [all, hd])⟩,
      fits_leaf rfl rfl (by simpa [Document.leaves] using hleaf)⟩,
      Fits.agendaIf rfl b fun d hd => h d (by simp [all, hd])⟩,
      Fits.agendaOf rfl es fun d hd => h d (by simp [all, hd])⟩
  | .comment _ _ lines, h =>
    fits_leaves rfl rfl fun v hv => (h _ (mem_all_self _)).leaves v hv
  | .tags _ _ names, h =>
    fits_leaves rfl rfl fun v hv => (h _ (mem_all_self _)).leaves v hv
  | .step r keyword m argument st exception si bg, h => by
    have hleaf := (h _ (mem_all_self _)).leaves
    simp only [Document.leaves, List.mem_cons, List.not_mem_nil, or_false, forall_eq_or_imp,
      forall_eq] at hleaf
    refine ⟨rfl, ?_, stands_result .., ?_, trivial⟩
    · simpa using hleaf.1.guardable strict
    · simp only [Agenda.fits_append]
      refine ⟨⟨fits_leaf rfl rfl (by simpa using hleaf.1),
        Fits.agendaIf rfl argument fun d hd => h d (by simp [all, hd])⟩, ?_⟩
      split
      · trivial
      · exact fits_leaf rfl rfl (by simpa using hleaf.2)
  | .background r g ss, h => by
    have hleaf := (h _ (mem_all_self _)).leaves
    have hss : ∀ d ∈ ss.all, Stored D w d := fun d hd => h d (by simp [all, hd])
    simp only [Document.agenda, Agenda.fits_append]
    exact ⟨fits_leaf rfl rfl (by simpa [Document.leaves, Heading.values] using hleaf),
      (hss _ (mem_all_self _)).entry rfl (Fits.agenda ss hss) trivial⟩
  | .scenario r g ss c t, h => by
    have hleaf := (h _ (mem_all_self _)).leaves
    have hss : ∀ d ∈ ss.all, Stored D w d := fun d hd => h d (by simp [all, hd])
    simp only [Document.agenda, Agenda.fits_append]
    exact ⟨⟨⟨Fits.agendaIf rfl c fun d hd => h d (by simp [all, hd]),
      Fits.agendaIf rfl t fun d hd => h d (by simp [all, hd])⟩,
      fits_leaf rfl rfl (by simpa [Document.leaves, Heading.values] using hleaf)⟩,
      (hss _ (mem_all_self _)).entry rfl (Fits.agenda ss hss) trivial⟩
  | .scenarioOutline r g ss c t es, h => by
    have hleaf := (h _ (mem_all_self _)).leaves
    have hss : ∀ d ∈ ss.all, Stored D w d := fun d hd => h d (by simp [all, hd])
    have hes : ∀ d ∈ es.all, Stored D w d := fun d hd => h d (by simp [all, hd])
    simp only [Document.agenda, Agenda.fits_append]
    exact ⟨⟨⟨⟨Fits.agendaIf rfl c fun d hd => h d (by simp [all, hd]),
      Fits.agendaIf rfl t fun d hd => h d (by simp [all, hd])⟩,
      fits_leaf rfl rfl (by simpa [Document.leaves, Heading.values] using hleaf)⟩,
      (hss _ (mem_all_self _)).entry rfl (Fits.agenda ss hss) trivial⟩,
      (hes _ (mem_all_self _)).entry rfl (Fits.agenda es hes) trivial⟩
  | .examples r keyword name rows, h => by
    have hleaf := (h _ (mem_all_self _)).leaves
    have hrows : ∀ d ∈ rows.all, Stored D w d := fun d hd => h d (by simp [all, hd])
    simp only [Document.agenda, Agenda.fits_append]
    exact ⟨fits_leaf rfl rfl (by simpa [Document.leaves] using hleaf),
      (hrows _ (mem_all_self _)).entry rfl (Fits.agenda rows hrows) trivial⟩
  | .tableCell _ _ _, h =>
    fits_leaf rfl rfl (by simpa [Document.leaves] using (h _ (mem_all_self _)).leaves)
  | .pyString _ _, h =>
    fits_leaf rfl rfl (by simpa [Document.leaves] using (h _ (mem_all_self _)).leaves)

theorem Fits.agendaOf {e : Event} (he : e.entersNode = true) :
    ∀ ds : List Document, (∀ d ∈ allOf ds, Stored D w d) →
      (Document.agendaOf e ds : Agenda κ).Fits strict D w
  | [], _ => trivial
  | d :: rest, h =>
    (h d (by simp [allOf, mem_all_self])).entry he
      (Fits.agenda d fun c hc => h c (by simp [allOf, hc]))
      (Fits.agendaOf he rest fun c hc => h c (by simp [allOf, hc]))

theorem Fits.agendaIf {e : Event} (he : e.entersNode = true) :
    ∀ o : Option Document, (∀ d ∈ allIf o, Stored D w d) →
      (Document.agendaIf e o : Agenda κ).Fits strict D w
  | none, _ => trivial
  | some d, h =>
    (h d (by simp [allIf, mem_all_self])).entry he
      (Fits.agenda d fun c hc => h c (by simp [allIf, hc])) trivial

end

/-- The objects of a document stand for the agenda of a walk that enters it. -/
theorem Fits.entered {d : Document} (h : d.Fits D w) {e : Event} (he : e.entersNode = true) :
    (d.entered e : Agenda κ).Fits strict D w :=
  (h d (mem_all_self d)).entry he (Fits.agenda d h) trivial

end Document

end GuardedWalk
