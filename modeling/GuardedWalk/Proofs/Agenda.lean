import GuardedWalk.Proofs.Document
import GuardedWalk.Walk

/-!
# What is on the agenda of a walk

Nodes of the document classes hand on what their fields contain. Nodes of foreign classes, and nodes
that have been given a traversal of their own, run code that calls the entry methods of its visitor,
and may do other things in between that others hear of. What a walk comes across in either way is an
agenda: announcements, one within the other, and questions to others. Both kinds of nodes may stand
within one agenda.

## Main definitions

* `GuardedWalk.Source` — what hands on what an announcement encloses.
* `GuardedWalk.Agenda` — what a walk comes across, in order.
* `GuardedWalk.Agenda.calls`, `asks`, `notices` — what is called, asked and said.
* `GuardedWalk.Agenda.perform` — foreign code that does what is on an agenda.
* `GuardedWalk.Agenda.Fits`, `Coded` — objects and foreign code for an agenda.
* `GuardedWalk.Agenda.IsWritten` — nobody is asked anything, and no foreign code is run.

## Main results

* `GuardedWalk.Agenda.Fits.frame` — objects for an agenda stay such.
-/

set_option autoImplicit false

namespace GuardedWalk

/-- An entry method that is given a node is given nothing else. -/
theorem Event.params_of_entersNode {e : Event} (he : e.entersNode = true) :
    e.params.length = 1 := by
  cases e <;> first | rfl | cases he

/-- The walk goes on below a node that an entry method is given. -/
theorem Event.isComposite_of_entersNode {e : Event} (he : e.entersNode = true) :
    e.isComposite = true := by
  simp only [Event.entersNode, Bool.and_eq_true] at he
  exact he.1

/-- An entry method that is given a node announces something. -/
theorem Event.ne_announce_of_entersNode {e : Event} (he : e.entersNode = true) :
    e ≠ .announce := by
  rintro rfl
  cases he

/-- What hands on what an announcement encloses. -/
inductive Source where
  /-- A node of a document class hands on what its fields contain. -/
  | written (r : Ref .node) (c : DocumentClass) (content : String → Document.Content)
  /-- A node runs code: its own, or that of its foreign class if it has none. -/
  | coded (r : Ref .node) (own : Option (Ref .node))
  /-- The walker hands on the parts of the result of a step. -/
  | result

/-- What a walk comes across, in order. -/
inductive Agenda (κ : Type) where
  /-- Nothing. -/
  | done
  /-- Others are asked something, then comes the rest. -/
  | ask (c : κ) (rest : Agenda κ)
  /-- An event is announced, around what its source hands on if it has one; then comes the rest. -/
  | entry (e : Event) (args : List Value) (source : Option Source) (inner rest : Agenda κ)

/-! ## What nodes of the document classes hand on -/

namespace Document.Content

/-- A content as a value. -/
def single : Content → Value
  | value v => v
  | list l _ => .list l

/-- The elements of a content. -/
def elements : Content → List Value
  | value _ => []
  | list _ vs => vs

end Document.Content

namespace Part

/-- The entry methods that are called to hand on a part, with what they are given. -/
def handed (content : String → Document.Content) : Part → List (Event × List Value)
  | each field e => (content field).elements.map fun v => (e, [v])
  | optional field e =>
    if (content field).single = .none then [] else [(e, [(content field).single])]
  | always e fields => [(e, fields.map fun field => (content field).single)]

/-- The fields that a part is found in. -/
def fields : Part → List String
  | each field _ | optional field _ => [field]
  | always _ fields => fields

/-- The fields that a part is found in contain what they should, and a list where elements are
handed on. -/
structure Kept {ε : Type} (D : Ref .list → Prop) (w : World ε) (r : Ref .node)
    (content : String → Document.Content) (part : Part) : Prop where
  keeps : ∀ field ∈ part.fields, Document.Keeps D w r field (content field)
  list : ∀ field e, part = .each field e → ∃ l vs, content field = .list l vs

end Part

/-- What the entry method of a step's result is given. -/
theorem Event.args_of_stepResult {args : List Value}
    (hlen : args.length = Event.stepResult.params.length) :
    ∃ keyword stepMatch multilineArg status exception sourceIndent background,
      args = [keyword, stepMatch, multilineArg, status, exception, sourceIndent, background] := by
  match args, hlen with
  | [a, b, c, d, e, f, g], _ => exact ⟨a, b, c, d, e, f, g, rfl⟩

/-- The entry methods that are called to hand on the result of a step. -/
def resultCalls : List Value → List (Event × List Value)
  | [keyword, stepMatch, multilineArg, status, exception, sourceIndent, background] =>
    [(.stepName, [keyword, stepMatch, status, sourceIndent, background])] ++
      (if multilineArg = .none then [] else [(.multilineArg, [multilineArg])]) ++
      if exception = .none then [] else [(.exception, [exception, status])]
  | _ => []

namespace Agenda

variable {ε κ : Type}

/-- One agenda after another. -/
def append : Agenda κ → Agenda κ → Agenda κ
  | done, B => B
  | ask c rest, B => ask c (rest.append B)
  | entry e args source inner rest, B => entry e args source inner (rest.append B)

instance : Append (Agenda κ) := ⟨append⟩

/-- An announcement that encloses nothing. -/
def leaf (e : Event) (args : List Value) : Agenda κ := entry e args none done done

/-- Announcements of an event that enclose nothing, one after the other. -/
def leaves (e : Event) : List Value → Agenda κ
  | [] => done
  | v :: rest => entry e [v] none done (leaves e rest)

/-- The entry methods that are called on the outside, with what they are given. -/
def calls : Agenda κ → List (Event × List Value)
  | done => []
  | ask _ rest => rest.calls
  | entry e args _ _ rest => (e, args) :: rest.calls

/-- Nothing is asked on the outside. -/
def AsksNothing : Agenda κ → Prop
  | done => True
  | ask _ _ => False
  | entry _ _ _ _ rest => rest.AsksNothing

/-- All that is asked. -/
def asks : Agenda κ → List κ
  | done => []
  | ask c rest => c :: rest.asks
  | entry _ _ _ inner rest => inner.asks ++ rest.asks

/-- What is said. -/
def notices : Agenda κ → List Notice
  | done => []
  | ask _ rest => rest.notices
  | entry e args _ inner rest => around e args inner.notices ++ rest.notices

/-- Foreign code that does what is on an agenda. -/
def perform (visitor : Value) : Agenda κ → Walk.Steps ε κ Value
  | done => return .none
  | ask c rest => do
    let _ ← Routine.invoke (.foreign c)
    rest.perform visitor
  | entry e args _ _ rest => do
    let _ ← Walk.send visitor (.entry e) args
    rest.perform visitor

section Append

variable (e : Event) (args : List Value) (source : Option Source) (c : κ) (A B inner : Agenda κ)

@[simp] theorem done_append : (done ++ B : Agenda κ) = B := rfl

@[simp] theorem ask_append : (ask c A ++ B : Agenda κ) = ask c (A ++ B) := rfl

@[simp] theorem entry_append :
    (entry e args source inner A ++ B : Agenda κ) = entry e args source inner (A ++ B) := rfl

@[simp] theorem calls_append : (A ++ B).calls = A.calls ++ B.calls := by
  induction A with
  | done => rfl
  | ask c rest ih => exact ih
  | entry e args source inner rest _ ih => simp [calls, ih]

@[simp] theorem asksNothing_append : (A ++ B).AsksNothing ↔ A.AsksNothing ∧ B.AsksNothing := by
  induction A with
  | done => simp [AsksNothing]
  | ask c rest ih => simp [AsksNothing]
  | entry e args source inner rest _ ih => exact ih

@[simp] theorem asks_append : (A ++ B).asks = A.asks ++ B.asks := by
  induction A with
  | done => rfl
  | ask c rest ih => simp [asks, ih]
  | entry e args source inner rest _ ih => simp [asks, ih]

@[simp] theorem notices_append : (A ++ B).notices = A.notices ++ B.notices := by
  induction A with
  | done => rfl
  | ask c rest ih => exact ih
  | entry e args source inner rest _ ih => simp [notices, ih]

end Append

/-! ## Objects and foreign code for an agenda -/

/-- What stands behind an announcement in a world, given what it encloses: nothing, or a node that
hands it on and whose marks belong together, or the result of a step. -/
inductive Stands (D : Ref .list → Prop) (w : World ε) (e : Event) (args : List Value) :
    Option Source → Agenda κ → Prop where
  | leaf (single : e.isComposite = false) : Stands D w e args none done
  | written {r : Ref .node} {c : DocumentClass} {content : String → Document.Content}
    {inner : Agenda κ} (enters : e.entersNode = true) (given : args = [.node r])
    (cls : (w.nodes.get r).cls = .document c) (marked : w.Marked r none)
    (kept : ∀ part ∈ c.parts, part.Kept D w r content) (quiet : inner.AsksNothing)
    (calls : inner.calls = c.parts.flatMap (Part.handed content)) :
    Stands D w e args (some (.written r c content)) inner
  | coded {r : Ref .node} {own : Option (Ref .node)} {inner : Agenda κ}
    (enters : e.entersNode = true) (given : args = [.node r])
    (cls : own = none → ∃ c, (w.nodes.get r).cls = .foreign c) (marked : w.Marked r own) :
    Stands D w e args (some (.coded r own)) inner
  | result {inner : Agenda κ} (event : e = .stepResult) (quiet : inner.AsksNothing)
    (calls : inner.calls = resultCalls args) : Stands D w e args (some .result) inner

/-- The objects of a world stand for an agenda: entry methods are given as many arguments as they
take, guards may be put on what comes first among them, and something stands behind each
announcement. -/
def Fits (strict : Bool) (D : Ref .list → Prop) (w : World ε) : Agenda κ → Prop
  | done => True
  | ask _ rest => rest.Fits strict D w
  | entry e args source inner rest =>
    args.length = e.params.length ∧ (∀ v ∈ args.head?, w.Guardable strict v) ∧
      Stands D w e args source inner ∧ inner.Fits strict D w ∧ rest.Fits strict D w

end Agenda

/-- What the code of a foreign node does, its own or that of its class. -/
def Foreign.traversal {ε κ : Type} (F : Foreign ε κ) (t : Thread) (r : Ref .node)
    (visitor : Value) : Option (Ref .node) → Walk.Steps ε κ Value
  | none => F.accept t false r visitor
  | some n => F.accept t true n visitor

namespace Agenda

variable {ε κ : Type}

/-- Foreign nodes do what the agenda says when a visitor comes. -/
def Coded (F : Foreign ε κ) (t : Thread) (visitor : Value) : Agenda κ → Prop
  | done => True
  | ask _ rest => rest.Coded F t visitor
  | entry _ _ source inner rest =>
    (∀ r own, source = some (.coded r own) →
      F.traversal t r visitor own = inner.perform visitor) ∧
    inner.Coded F t visitor ∧ rest.Coded F t visitor

variable {strict : Bool} {D : Ref .list → Prop} {w w' : World ε} {A B : Agenda κ}

@[simp] theorem fits_append :
    (A ++ B).Fits strict D w ↔ A.Fits strict D w ∧ B.Fits strict D w := by
  induction A with
  | done => simp [Fits]
  | ask c rest ih => exact ih
  | entry e args source inner rest _ ih =>
    rw [entry_append, Fits, ih, Fits]
    simp only [and_assoc]

@[simp] theorem coded_append {F : Foreign ε κ} {t : Thread} {visitor : Value} :
    (A ++ B).Coded F t visitor ↔ A.Coded F t visitor ∧ B.Coded F t visitor := by
  induction A with
  | done => simp [Coded]
  | ask c rest ih => exact ih
  | entry e args source inner rest _ ih =>
    rw [entry_append, Coded, ih, Coded]
    simp only [and_assoc]

/-- Nobody is asked anything, and no foreign code is run. -/
def IsWritten : Agenda κ → Prop
  | done => True
  | ask _ _ => False
  | entry _ _ source inner rest =>
    (∀ r own, source ≠ some (.coded r own)) ∧ inner.IsWritten ∧ rest.IsWritten

@[simp] theorem isWritten_append : (A ++ B).IsWritten ↔ A.IsWritten ∧ B.IsWritten := by
  induction A with
  | done => simp [IsWritten]
  | ask c rest ih => simp [IsWritten]
  | entry e args source inner rest _ ih =>
    rw [entry_append, IsWritten, ih, IsWritten]
    simp only [and_assoc]

theorem IsWritten.asks (h : A.IsWritten) : A.asks = [] := by
  induction A with
  | done => rfl
  | ask c rest ih => exact h.elim
  | entry e args source inner rest ihInner ih => simp [Agenda.asks, ihInner h.2.1, ih h.2.2]

theorem IsWritten.coded (h : A.IsWritten) (F : Foreign ε κ) (t : Thread) (visitor : Value) :
    A.Coded F t visitor := by
  induction A with
  | done => trivial
  | ask c rest ih => exact h.elim
  | entry e args source inner rest ihInner ih =>
    exact ⟨fun r own hs => absurd hs (h.1 r own), ihInner h.2.1, ih h.2.2⟩

/-! ## What stays as it is -/

/-- No field that is handed on is named like a mark. -/
theorem field_not_mem_marks {c : DocumentClass} {part : Part} (hp : part ∈ c.parts)
    {field : String} (hf : field ∈ part.fields) : field ∉ Node.marks := by
  have h : ∀ part ∈ c.parts, ∀ field ∈ part.fields, field ∉ Node.marks := by
    cases c <;> decide
  exact h part hp field hf

variable {V : Value → Prop}

theorem kept_frame {c : DocumentClass} {part : Part} (hp : part ∈ c.parts) {r : Ref .node}
    {content : String → Document.Content} (hk : part.Kept D w r content)
    (hc : (w.nodes.get r).cls = .document c) (hf : World.Frame V w w')
    (hfields : ∀ name ∉ Node.marks,
      (w'.carried (.node r)).get? name = (w.carried (.node r)).get? name)
    (hlists : ∀ l : Ref .list, D l → w'.items l = w.items l) :
    part.Kept D w' r content where
  keeps field hfield := (hk.keeps field hfield).frame hc hf
    (hfields field (field_not_mem_marks hp hfield)) fun l hl _ => hlists l hl
  list := hk.list

/-- Objects for an agenda stay such as long as the fields of nodes and the lists of documents stay
and marks that belong together still do. -/
theorem Fits.frame (h : A.Fits strict D w) (hf : World.Frame V w w')
    (hfields : ∀ r : Ref .node, ∀ name ∉ Node.marks,
      (w'.carried (.node r)).get? name = (w.carried (.node r)).get? name)
    (hlists : ∀ l : Ref .list, D l → w'.items l = w.items l)
    (hmarked : ∀ r own, w.Marked r own → w'.Marked r own) : A.Fits strict D w' := by
  induction A with
  | done => trivial
  | ask c rest ih => exact ih h
  | entry e args source inner rest ihInner ih =>
    obtain ⟨hlen, hguard, hstands, hinner, hrest⟩ := h
    refine ⟨hlen, fun v hv => (hguard v hv).frame hf, ?_, ihInner hinner, ih hrest⟩
    cases hstands with
    | leaf single => exact .leaf single
    | written enters given cls marked kept quiet calls =>
      exact .written enters given ((hf.nodes _).trans cls) (hmarked _ _ marked)
        (fun part hp => kept_frame hp (kept part hp) cls hf (hfields _) hlists) quiet calls
    | coded enters given cls marked =>
      exact .coded enters given (fun ho => (cls ho).imp fun c hc => (hf.nodes _).trans hc)
        (hmarked _ _ marked)
    | result event quiet calls => exact .result event quiet calls

/-- Steps of a walk leave the objects of an agenda alone. -/
theorem Fits.mild (h : A.Fits strict D w) (hm : World.Mild w w')
    (hmarked : ∀ r own, w.Marked r own → w'.Marked r own) : A.Fits strict D w' :=
  h.frame hm.toFrame (fun _ => hm.carried _ rfl)
    (fun l _ => by simp [World.items, hm.lists]) hmarked

end Agenda

end GuardedWalk
