/-
ParametricPlan/Proofs/Text/Dump.lean

One line tells what was dumped.

The words of a dump can hold anything, and so two dumps may well have one text.  A dump is
`Readable` if its names, labels and words are of letters, digits, points and minus signs only;
words may also be quoted texts, or be a certain name with a word in parentheses, and that name no
tuple has.

Behind a dump stands nothing, a comma, or a bracket that closes (`Ends`); behind one that ends with
a bracket of its own may stand anything (`EndedBy`).  The layout of a readable dump shows in what
follows the first run of letters in its text (`layoutAt_plainOnto`), hence two dumps of one text
are of one layout, and their parts can be compared from left to right, each part being ended by
what follows it (`plainItemsOnto_inj`).  Main result: no text begins with two readable dumps
(`Readable.identified`, `Readable.plain_append_inj`).
-/
import ParametricPlan.Proofs.Text.Quoted
import ParametricPlan.Text.Dump

namespace ParametricPlan.Dump

/-! ### Words -/

/-- The characters of words, names and labels. -/
def isWordChar (c : Char) : Bool :=
  c.isAlphanum || c == '.' || c == '-'

/-- A text of such characters, with at least one of them. -/
def IsWord (text : String) : Prop :=
  text ≠ "" ∧ ∀ c ∈ text.toList, isWordChar c = true

instance (text : String) : Decidable (IsWord text) :=
  @instDecidableAnd _ _ _ (List.decidableBAll _ _)

/-- The name that is written in one word with what stands in its parentheses. -/
def innerName : String :=
  "ReferenceId"

/-- What can be dumped as one word. -/
inductive IsAtom : String → Prop
  | word {text : String} (h : IsWord text) : IsAtom text
  | quoted (text : String) : IsAtom (Quoted.quote text)
  | inner {text : String} (h : IsWord text) : IsAtom (innerName ++ "(" ++ text ++ ")")

/-- Dumps whose parts can be told apart. -/
inductive Readable : Dump → Prop
  | word {text : String} (h : IsAtom text) : Readable (word text)
  | labelled {label : String} {item : Dump} (hlabel : IsWord label) (hitem : Readable item) :
      Readable (labelled label item)
  | tuple {name : String} {items : List Dump} (hname : IsWord name) (hne : name ≠ innerName)
      (hitems : ∀ item ∈ items, Readable item) : Readable (tuple name items)
  | record {name : String} {items : List Dump} (hname : IsWord name)
      (hitems : ∀ item ∈ items, Readable item) : Readable (record name items)
  | list {items : List Dump} (hitems : ∀ item ∈ items, Readable item) : Readable (list items)

/-- A word with a label is readable. -/
theorem Readable.labelledWord {label text : String} (hlabel : IsWord label) (htext : IsWord text) :
    Readable (.labelled label (.word text)) :=
  .labelled hlabel (.word (.word htext))

theorem forall_readable_pair {d d' : Dump} (h : Readable d) (h' : Readable d') :
    ∀ item ∈ [d, d'], Readable item :=
  List.forall_mem_cons.mpr ⟨h, List.forall_mem_singleton.mpr h'⟩

/-! ### What ends a dump -/

/-- The brackets that close; a blank belongs to the brace. -/
inductive Closing : List Char → Prop
  | parenthesis : Closing [')']
  | bracket : Closing [']']
  | brace : Closing [' ', '\x7d']

/-- What may stand behind a dump. -/
inductive Ends : List Char → Prop
  | nothing : Ends []
  | comma (rest : List Char) : Ends (',' :: rest)
  | closing {close : List Char} (h : Closing close) (rest : List Char) : Ends (close ++ rest)

/-- A word does not go on with some characters. -/
def EndsWord (rest : List Char) : Prop :=
  ∀ c ∈ rest.head?, isWordChar c = false

/-- A word ends before any character that is not one of words. -/
theorem endsWord_cons {c : Char} (h : isWordChar c = false) (rest : List Char) :
    EndsWord (c :: rest) := by
  rintro d ⟨⟩
  exact h

/-- The characters that what stands behind a dump can begin with. -/
def enders : List Char :=
  [',', ')', ']', ' ']

/-- There are four characters that what ends a dump can begin with. -/
theorem Ends.head_mem {rest : List Char} (h : Ends rest) : ∀ c ∈ rest.head?, c ∈ enders := by
  cases h with
  | nothing => simp
  | comma rest => simp [enders]
  | closing hclose rest => cases hclose <;> simp [enders]

/-- What ends a dump ends a word. -/
theorem Ends.endsWord {rest : List Char} (h : Ends rest) : EndsWord rest := by
  have hnone : ∀ c ∈ enders, isWordChar c = false := by
    simp only [enders, List.forall_mem_cons]
    exact ⟨rfl, rfl, rfl, rfl, List.forall_mem_nil _⟩
  exact fun c hc => hnone c (h.head_mem c hc)

/-- A word, before what ends it, is told by the text. -/
theorem word_append_inj {text text' : String} {s t : List Char} (h : IsWord text)
    (h' : IsWord text') (hs : EndsWord s) (ht : EndsWord t)
    (heq : text.toList ++ s = text'.toList ++ t) : text = text' ∧ s = t := by
  obtain ⟨htext, hrest⟩ := run_append_inj h.2 h'.2 hs ht heq
  exact ⟨String.toList_inj.mp htext, hrest⟩

/-! ### Layouts -/

/-- The layouts of dumps. -/
inductive Layout where
  | word
  | labelled
  | tuple
  | record
  | list
deriving DecidableEq

/-- The layout of a dump. -/
def layout : Dump → Layout
  | word _ => .word
  | labelled .. => .labelled
  | tuple .. => .tuple
  | record .. => .record
  | list _ => .list

/-- Whether a dump ends with a bracket of its own. -/
def isClosed : Dump → Bool
  | word _ | labelled .. => false
  | tuple .. | record .. | list _ => true

/-- Behind a dump without a bracket of its own stands something that ends it. -/
def EndedBy (d : Dump) (rest : List Char) : Prop :=
  d.isClosed = false → Ends rest

/-- A dump that ends with a bracket may be followed by anything. -/
theorem endedBy_of_isClosed {d : Dump} (h : d.isClosed = true) (rest : List Char) :
    d.EndedBy rest := by
  intro hopen
  rw [h] at hopen
  cases hopen

/-- The layout that shows in what follows the first word of a text. -/
def layoutBehind (run : List Char) : List Char → Layout
  | ':' :: _ => .labelled
  | '(' :: _ => if run = innerName.toList then .word else .tuple
  | ' ' :: '\x7b' :: _ => .record
  | '[' :: _ => .list
  | _ => .word

/-- The layout of the dump that a text begins with. -/
def layoutAt (text : List Char) : Layout :=
  let (run, rest) := text.span isWordChar
  layoutBehind run rest

/-- The layout shows in what follows the first run, whatever the run is. -/
theorem layoutAt_append {run rest : List Char} (h : ∀ c ∈ run, isWordChar c = true)
    (hrest : EndsWord rest) : layoutAt (run ++ rest) = layoutBehind run rest := by
  rw [layoutAt, span_run h hrest]

/-- If a dump ends behind its first word, it is that word. -/
theorem Ends.layoutBehind_eq {rest : List Char} (h : Ends rest) (run : List Char) :
    layoutBehind run rest = .word := by
  cases h with
  | nothing => rfl
  | comma rest => rfl
  | closing hclose rest => cases hclose <;> rfl

theorem isWord_innerName : IsWord innerName := by
  decide

/-- In a word with another one in parentheses, the name is the first run. -/
theorem toList_inner (text : String) (rest : List Char) :
    (innerName ++ "(" ++ text ++ ")").toList ++ rest =
      innerName.toList ++ '(' :: (text.toList ++ ')' :: rest) := by
  simp

/-- Words of each kind show as words. -/
theorem layoutAt_atom {text : String} (h : IsAtom text) {rest : List Char} (hrest : Ends rest) :
    layoutAt (text.toList ++ rest) = .word := by
  cases h with
  | word h => rw [layoutAt_append h.2 hrest.endsWord, hrest.layoutBehind_eq]
  | quoted text =>
    -- the mark is no letter, so that the first run is empty
    rw [Quoted.toList_quote]
    exact layoutAt_append (List.forall_mem_nil _) (endsWord_cons rfl _)
  | inner h =>
    -- the parenthesis that follows belongs to a tuple, but for this one name
    rw [toList_inner, layoutAt_append isWord_innerName.2 (endsWord_cons rfl _), layoutBehind,
      if_pos rfl]

/-- **The text of a dump shows its layout.** -/
theorem layoutAt_plainOnto {d : Dump} (h : Readable d) {rest : List Char}
    (hrest : d.EndedBy rest) : layoutAt (d.plainOnto rest) = d.layout := by
  cases h with
  | word h => exact layoutAt_atom h (hrest rfl)
  | labelled hlabel hitem => exact layoutAt_append hlabel.2 (endsWord_cons rfl _)
  | @tuple name items hname hne hitems =>
    have hname' : name.toList ≠ innerName.toList := fun heq => hne (String.toList_inj.mp heq)
    refine (layoutAt_append hname.2 (endsWord_cons rfl _)).trans ?_
    rw [layoutBehind, if_neg hname', layout]
  | record hname hitems => exact layoutAt_append hname.2 (endsWord_cons rfl _)
  | list hitems => exact layoutAt_append (List.forall_mem_nil _) (endsWord_cons rfl _)

/-! ### Atoms -/

theorem not_endsWord_append {text : String} (h : IsWord text) (s : List Char) :
    ¬ EndsWord (text.toList ++ s) := by
  obtain ⟨c, cs, hcs⟩ : ∃ c cs, text.toList = c :: cs :=
    List.exists_cons_of_ne_nil fun hnil => h.1 (String.toList_inj.mp hnil)
  intro hend
  have hfalse := hend c (by rw [hcs]; rfl)
  rw [h.2 c (hcs ▸ List.mem_cons_self)] at hfalse
  cases hfalse

/-- A word does not begin with the mark. -/
theorem word_append_ne_quote {text text' : String} (h : IsWord text) (s t : List Char) :
    text.toList ++ s ≠ (Quoted.quote text').toList ++ t := by
  rw [Quoted.toList_quote]
  exact fun heq => not_endsWord_append h s (heq ▸ endsWord_cons rfl _)

/-- The name alone is not the name with its parentheses. -/
theorem word_append_ne_inner {text text' : String} (h : IsWord text) {s : List Char} (hs : Ends s)
    (t : List Char) : text.toList ++ s ≠ (innerName ++ "(" ++ text' ++ ")").toList ++ t := by
  intro heq
  rw [toList_inner] at heq
  obtain ⟨-, rfl⟩ := word_append_inj h isWord_innerName hs.endsWord (endsWord_cons rfl _) heq
  -- a parenthesis that opens ends nothing
  exact absurd (hs.head_mem '(' rfl) (by decide)

/-- The name does not begin with the mark. -/
theorem quote_append_ne_inner (text text' : String) (s t : List Char) :
    (Quoted.quote text).toList ++ s ≠ (innerName ++ "(" ++ text' ++ ")").toList ++ t := by
  rw [Quoted.toList_quote, toList_inner]
  intro heq
  cases heq

/-- Words of any kinds, before what ends them, are told by the text. -/
theorem atom_append_inj {text text' : String} {s t : List Char} (h : IsAtom text)
    (h' : IsAtom text') (hs : Ends s) (ht : Ends t)
    (heq : text.toList ++ s = text'.toList ++ t) : text = text' ∧ s = t := by
  cases h with
  | word h =>
    cases h' with
    | word h' => exact word_append_inj h h' hs.endsWord ht.endsWord heq
    | quoted => exact absurd heq (word_append_ne_quote h s t)
    | inner => exact absurd heq (word_append_ne_inner h hs t)
  | quoted =>
    cases h' with
    | word h' => exact absurd heq.symm (word_append_ne_quote h' t s)
    | quoted =>
      obtain ⟨rfl, hrest⟩ := Quoted.quote_append_inj heq
      exact ⟨rfl, hrest⟩
    | inner => exact absurd heq (quote_append_ne_inner _ _ s t)
  | inner h =>
    cases h' with
    | word h' => exact absurd heq.symm (word_append_ne_inner h' ht s)
    | quoted => exact absurd heq.symm (quote_append_ne_inner _ _ t s)
    | inner h' =>
      -- behind the common name, the words in the parentheses are ended by them
      rw [toList_inner, toList_inner] at heq
      have hparts := (List.cons.inj (List.append_cancel_left heq)).2
      obtain ⟨rfl, hrest⟩ := word_append_inj h h' (endsWord_cons rfl _) (endsWord_cons rfl _) hparts
      exact ⟨rfl, (List.cons.inj hrest).2⟩

/-! ### Items -/

/-- The text of a dump tells the dump, and where its text ends. -/
def Identified (d : Dump) : Prop :=
  ∀ {d' : Dump} {s t : List Char}, Readable d' → d.EndedBy s → d'.EndedBy t →
    d.plainOnto s = d'.plainOnto t → d = d' ∧ s = t

/-- The text of a dump does not begin with anything that ends a dump. -/
theorem Readable.not_ends_plainOnto {d : Dump} (h : Readable d) (s : List Char) :
    ¬ Ends (d.plainOnto s) := by
  intro hend
  cases h with
  | word h =>
    rw [plainOnto] at hend
    cases h with
    | word h => exact not_endsWord_append h s hend.endsWord
    | quoted text =>
      rw [Quoted.toList_quote] at hend
      exact absurd (hend.head_mem '"' rfl) (by decide)
    | inner h =>
      rw [toList_inner] at hend
      exact not_endsWord_append isWord_innerName _ hend.endsWord
  | labelled hlabel hitem => exact not_endsWord_append hlabel _ hend.endsWord
  | tuple hname hne hitems => exact not_endsWord_append hname _ hend.endsWord
  | record hname hitems => exact not_endsWord_append hname _ hend.endsWord
  | list hitems => exact absurd (hend.head_mem '[' rfl) (by decide)

/-- The items after the first, each with a comma before it. -/
def moreItemsOnto : List Dump → List Char → List Char
  | [], rest => rest
  | item :: items, rest => ',' :: ' ' :: plainItemsOnto (item :: items) rest

/-- The first item stands before the further ones. -/
theorem plainItemsOnto_cons (item : Dump) (items : List Dump) (rest : List Char) :
    plainItemsOnto (item :: items) rest = item.plainOnto (moreItemsOnto items rest) := by
  cases items with
  | nil => rfl
  | cons => rfl

section

variable {close : List Char} (hclose : Closing close)

include hclose

/-- An item is ended by a comma, or by the bracket behind the last of them. -/
theorem ends_moreItemsOnto (items : List Dump) (rest : List Char) :
    Ends (moreItemsOnto items (close ++ rest)) := by
  cases items with
  | nil => exact .closing hclose rest
  | cons item items => exact .comma _

/-- A bracket that closes is no comma. -/
theorem closing_append_ne_comma (s t : List Char) : close ++ s ≠ ',' :: t := by
  intro heq
  cases hclose <;> cases heq

/-- Further items are told by their text, if each of them is. -/
theorem moreItemsOnto_inj {items items' : List Dump} {s t : List Char}
    (h : ∀ item ∈ items, Identified item) (h' : ∀ item ∈ items', Readable item)
    (heq : moreItemsOnto items (close ++ s) = moreItemsOnto items' (close ++ t)) :
    items = items' ∧ s = t := by
  induction items generalizing items' with
  | nil =>
    rcases items' with - | ⟨item', items'⟩
    · exact ⟨rfl, List.append_cancel_left heq⟩
    · exact absurd heq (closing_append_ne_comma hclose s _)
  | cons item items ih =>
    rcases items' with - | ⟨item', items'⟩
    · exact absurd heq.symm (closing_append_ne_comma hclose t _)
    · -- on both sides the first item is ended by the further ones
      rw [List.forall_mem_cons] at h h'
      rw [moreItemsOnto, moreItemsOnto, plainItemsOnto_cons, plainItemsOnto_cons] at heq
      have hitems := (List.cons.inj (List.cons.inj heq).2).2
      obtain ⟨rfl, hmore⟩ := h.1 h'.1 (fun _ => ends_moreItemsOnto hclose items s)
        (fun _ => ends_moreItemsOnto hclose items' t) hitems
      obtain ⟨rfl, hrest⟩ := ih h.2 h'.2 hmore
      exact ⟨rfl, hrest⟩

/-- The items between two brackets are told by their text, if each of them is. -/
theorem plainItemsOnto_inj {items items' : List Dump} {s t : List Char}
    (h : ∀ item ∈ items, Identified item) (hr : ∀ item ∈ items, Readable item)
    (h' : ∀ item ∈ items', Readable item)
    (heq : plainItemsOnto items (close ++ s) = plainItemsOnto items' (close ++ t)) :
    items = items' ∧ s = t := by
  rcases items with - | ⟨item, items⟩
  · rcases items' with - | ⟨item', items'⟩
    · exact ⟨rfl, List.append_cancel_left heq⟩
    · rw [plainItemsOnto, plainItemsOnto_cons] at heq
      -- the bracket that closes at once cannot begin an item
      exact absurd (heq ▸ Ends.closing hclose s)
        ((h' item' List.mem_cons_self).not_ends_plainOnto _)
  · rcases items' with - | ⟨item', items'⟩
    · rw [plainItemsOnto, plainItemsOnto_cons] at heq
      exact absurd (heq ▸ Ends.closing hclose t)
        ((hr item List.mem_cons_self).not_ends_plainOnto _)
    · -- with a comma before them both are further items
      exact moreItemsOnto_inj hclose h h' (congrArg (',' :: ' ' :: ·) heq)

end

/-! ### Dumps -/

/-- Dumps of one text are of one layout. -/
theorem layout_eq_of_plainOnto_eq {d d' : Dump} {s t : List Char} (h : Readable d)
    (h' : Readable d') (hs : d.EndedBy s) (ht : d'.EndedBy t)
    (heq : d.plainOnto s = d'.plainOnto t) : d.layout = d'.layout := by
  rw [← layoutAt_plainOnto h hs, ← layoutAt_plainOnto h' ht, heq]

/-- **No text begins with two readable dumps**, whatever ends them. -/
theorem Readable.identified {d : Dump} (h : Readable d) : d.Identified := by
  -- the layout that shows in the text leaves one case each for the other dump
  induction h with
  | word h =>
    intro d' s t h' hs ht heq
    have hlayout := layout_eq_of_plainOnto_eq (.word h) h' hs ht heq
    cases h' with
    | word h' =>
      obtain ⟨rfl, hrest⟩ := atom_append_inj h h' (hs rfl) (ht rfl) heq
      exact ⟨rfl, hrest⟩
    | _ => cases hlayout
  | labelled hlabel hitem ih =>
    intro d' s t h' hs ht heq
    have hlayout := layout_eq_of_plainOnto_eq (.labelled hlabel hitem) h' hs ht heq
    cases h' with
    | labelled hlabel' hitem' =>
      -- the labels are ended by the colon, and the items by what ends the dumps
      obtain ⟨rfl, hbehind⟩ := word_append_inj hlabel hlabel' (endsWord_cons rfl _)
        (endsWord_cons rfl _) heq
      obtain ⟨rfl, hrest⟩ := ih hitem' (fun _ => hs rfl) (fun _ => ht rfl)
        (List.cons.inj (List.cons.inj hbehind).2).2
      exact ⟨rfl, hrest⟩
    | _ => cases hlayout
  | tuple hname hne hitems ih =>
    intro d' s t h' hs ht heq
    have hlayout := layout_eq_of_plainOnto_eq (.tuple hname hne hitems) h' hs ht heq
    cases h' with
    | tuple hname' hne' hitems' =>
      obtain ⟨rfl, hbehind⟩ := word_append_inj hname hname' (endsWord_cons rfl _)
        (endsWord_cons rfl _) heq
      -- behind the names, the items stand in parentheses
      obtain ⟨rfl, hrest⟩ := plainItemsOnto_inj .parenthesis ih hitems hitems'
        (List.cons.inj hbehind).2
      exact ⟨rfl, hrest⟩
    | _ => cases hlayout
  | record hname hitems ih =>
    intro d' s t h' hs ht heq
    have hlayout := layout_eq_of_plainOnto_eq (.record hname hitems) h' hs ht heq
    cases h' with
    | record hname' hitems' =>
      obtain ⟨rfl, hbehind⟩ := word_append_inj hname hname' (endsWord_cons rfl _)
        (endsWord_cons rfl _) heq
      have hparts := (List.cons.inj (List.cons.inj (List.cons.inj hbehind).2).2).2
      obtain ⟨rfl, hrest⟩ := plainItemsOnto_inj .brace ih hitems hitems' hparts
      exact ⟨rfl, hrest⟩
    | _ => cases hlayout
  | list hitems ih =>
    intro d' s t h' hs ht heq
    have hlayout := layout_eq_of_plainOnto_eq (.list hitems) h' hs ht heq
    cases h' with
    | list hitems' =>
      obtain ⟨rfl, hrest⟩ := plainItemsOnto_inj .bracket ih hitems hitems' (List.cons.inj heq).2
      exact ⟨rfl, hrest⟩
    | _ => cases hlayout

mutual

/-- What follows a dump is not looked at when it is written. -/
theorem plainOnto_append : ∀ (d : Dump) (s t : List Char),
    d.plainOnto (s ++ t) = d.plainOnto s ++ t
  | word text, s, t => (List.append_assoc text.toList s t).symm
  | labelled label item, s, t => by simp [plainOnto, plainOnto_append item]
  | tuple name items, s, t => by simp [plainOnto, ← plainItemsOnto_append items]
  | record name items, s, t => by simp [plainOnto, ← plainItemsOnto_append items]
  | list items, s, t => by simp [plainOnto, ← plainItemsOnto_append items]

theorem plainItemsOnto_append : ∀ (items : List Dump) (s t : List Char),
    plainItemsOnto items (s ++ t) = plainItemsOnto items s ++ t
  | [], _, _ => rfl
  | [item], s, t => plainOnto_append item s t
  | item :: item' :: items, s, t => by
    simp [plainItemsOnto, ← plainOnto_append item, plainItemsOnto_append (item' :: items)]

end

theorem toList_plain_append (d : Dump) (text : String) :
    (d.plain ++ text).toList = d.plainOnto text.toList := by
  rw [String.toList_append, plain, String.toList_ofList, ← plainOnto_append, List.nil_append]

/-- No text begins with two readable dumps that end with brackets of their own. -/
theorem Readable.plain_append_inj {d d' : Dump} (h : Readable d) (h' : Readable d')
    (hd : d.isClosed = true) (hd' : d'.isClosed = true) {text text' : String}
    (heq : d.plain ++ text = d'.plain ++ text') : d = d' ∧ text = text' := by
  have hlists := congrArg String.toList heq
  rw [toList_plain_append, toList_plain_append] at hlists
  obtain ⟨hdump, hrest⟩ := h.identified h' (endedBy_of_isClosed hd _)
    (endedBy_of_isClosed hd' _) hlists
  exact ⟨hdump, String.toList_inj.mp hrest⟩

end ParametricPlan.Dump
