/-
ParametricPlan/Proofs/Command/Options.lean

The options of a run, one after the other.

The arguments of a run are read from left to right, and an option takes one or two of them: a
binding has two spellings, so that a word may be an option or the text of a binding, as it is what
stands before it that decides.  `Item` is an option with its words, and every list of arguments is
empty, or the beginning of a binding without its text, or begins with the words of an item or with
a word that is none (`arguments_induction`).

What an item reads as is put before what the other arguments read as (`parse_item`), by
`RunOptions.append`.  So arguments that are read without an error leave the reading of those that
follow to themselves (`parse_append_of_ok`), and an error stays what it is, whatever follows, unless
it is that of a binding without its text (`parse_append_of_error`, `parse_eq_missingValue_iff`).
Arguments are rejected for the first item that is wrong (`parse_eq_error_iff`).
`parse_item_by_item` is the main result.
-/
import Mathlib.Data.List.Basic
import ParametricPlan.Command.Options

namespace ParametricPlan.RunOptions

/-! ### Options after options -/

/-- Options followed by others; a fault ends the run if either part says so. -/
def append (o o' : RunOptions) : RunOptions :=
  ⟨o.bindings ++ o'.bindings, if o.policy = .halt ∨ o'.policy = .halt then .halt else .proceed⟩

theorem default_append (o : RunOptions) : default.append o = o := by
  obtain ⟨bindings, - | -⟩ := o <;> rfl

theorem append_assoc (o o' o'' : RunOptions) :
    (o.append o').append o'' = o.append (o'.append o'') := by
  obtain ⟨bindings, policy⟩ := o
  obtain ⟨bindings', policy'⟩ := o'
  obtain ⟨bindings'', policy''⟩ := o''
  refine congrArg₂ RunOptions.mk (List.append_assoc bindings bindings' bindings'') ?_
  rcases policy with - | - <;> rcases policy' with - | - <;> rcases policy'' with - | - <;> rfl

/-! ### Results -/

section

variable {ε α β : Type} {x : Except ε α} {f : α → β}

theorem exists_of_map_eq_ok {b : β} (h : x.map f = .ok b) : ∃ a, x = .ok a ∧ f a = b := by
  cases x with
  | error e => cases h
  | ok a => exact ⟨a, rfl, Except.ok.inj h⟩

theorem eq_error_of_map_eq_error {e : ε} (h : x.map f = .error e) : x = .error e := by
  cases x with
  | error e' => exact congrArg Except.error (Except.error.inj h)
  | ok a => cases h

end

/-! ### Items -/

/-- An option as it is written. -/
inductive Item where
  /-- A binding in two words. -/
  | set (text : String)
  /-- A binding in one word. -/
  | setInline (text : String)
  | haltOnFault

namespace Item

/-- The words of an option. -/
def words : Item → List String
  | set text => ["--set", text]
  | setInline text => ["--set=" ++ text]
  | haltOnFault => ["--halt-on-fault"]

/-- What an option reads as. -/
def read : Item → Except UsageError RunOptions
  | set text | setInline text => (parseBinding text).map fun binding => ⟨[binding], .proceed⟩
  | haltOnFault => .ok ⟨[], .halt⟩

end Item

/-- A word that begins no option. -/
structure Unknown (arg : String) : Prop where
  not_set : arg ≠ "--set"
  not_haltOnFault : arg ≠ "--halt-on-fault"
  not_setInline : ∀ text, arg ≠ "--set=" ++ text

/-- How arguments begin: with the last word of all, with an item, or with a word that is none. -/
theorem arguments_cases (arg : String) (args : List String) :
    arg = "--set" ∧ args = [] ∨
      (∃ (item : Item) (rest : List String), arg :: args = item.words ++ rest) ∨ Unknown arg := by
  by_cases hset : arg = "--set"
  · rcases args with - | ⟨text, rest⟩
    · exact .inl ⟨hset, rfl⟩
    · exact .inr (.inl ⟨.set text, rest, by rw [hset]; rfl⟩)
  by_cases hhalt : arg = "--halt-on-fault"
  · exact .inr (.inl ⟨.haltOnFault, args, by rw [hhalt]; rfl⟩)
  by_cases hinline : ∃ text, arg = "--set=" ++ text
  · obtain ⟨text, rfl⟩ := hinline
    exact .inr (.inl ⟨.setInline text, args, rfl⟩)
  · exact .inr (.inr ⟨hset, hhalt, fun text h => hinline ⟨text, h⟩⟩)

/-- Arguments are read item by item, so a property of them goes from the rest to the whole. -/
@[elab_as_elim]
theorem arguments_induction {motive : List String → Prop} (nil : motive [])
    (set_alone : motive ["--set"])
    (item : ∀ (item : Item) (rest : List String), motive rest → motive (item.words ++ rest))
    (unknown : ∀ (arg : String) (rest : List String), Unknown arg → motive (arg :: rest))
    (args : List String) : motive args := by
  -- on the number of words, since an item may have two of them
  induction hlen : args.length using Nat.strongRecOn generalizing args with
  | ind n ih =>
    rcases args with - | ⟨arg, args⟩
    · exact nil
    rcases arguments_cases arg args with ⟨rfl, rfl⟩ | ⟨i, rest, hitem⟩ | hunknown
    · exact set_alone
    · rw [hitem] at hlen ⊢
      have hshorter : rest.length < n := by
        rcases i with text | text | - <;> simp [Item.words] at hlen <;> omega
      exact item i rest (ih rest.length hshorter rest rfl)
    · exact unknown arg args hunknown

/-! ### Reading -/

theorem parse_set_alone : parse ["--set"] = .error (.missingValue "--set") :=
  rfl

/-- A word that begins no option is rejected, whatever follows. -/
theorem parse_unknown {arg : String} (h : Unknown arg) (rest : List String) :
    parse (arg :: rest) = .error (.unknownOption arg) := by
  have hnone : "--set=".toList.isPrefixOf? arg.toList = none := by
    rcases hprefix : "--set=".toList.isPrefixOf? arg.toList with - | text
    · rfl
    · -- otherwise the word is a binding in one word
      have happend := List.append_eq_of_isPrefixOf?_eq_some hprefix
      have harg : arg = "--set=" ++ String.ofList text := by
        have htext : (String.ofList text).toList = text := String.toList_ofList
        rw [← String.toList_inj, String.toList_append, htext]
        exact happend.symm
      exact absurd harg (h.not_setInline _)
  rw [parse.eq_def]
  simp only [if_neg h.not_set, if_neg h.not_haltOnFault, hnone]

theorem parse_set (text : String) (rest : List String) :
    parse ("--set" :: text :: rest) =
      (parseBinding text).bind fun binding => (parse rest).map (withBinding binding) := by
  show (do
    let binding ← parseBinding text
    let options ← parse rest
    return options.withBinding binding : Except UsageError RunOptions) = _
  cases parseBinding text with
  | error e => rfl
  | ok binding => cases parse rest <;> rfl

/-- The two spellings of a binding are the same before other arguments. -/
theorem parse_setInline (text : String) (rest : List String) :
    parse (("--set=" ++ text) :: rest) = parse ("--set" :: text :: rest) := by
  have hset : "--set=" ++ text ≠ "--set" := by
    intro h
    have hchars := congrArg String.toList h
    simp at hchars
  have hhalt : "--set=" ++ text ≠ "--halt-on-fault" := by
    intro h
    have hchars := congrArg String.toList h
    simp at hchars
  have hprefix : "--set=".toList.isPrefixOf? ("--set=" ++ text).toList = some text.toList := by
    rw [String.toList_append, List.isPrefixOf?_eq_some_iff_append_eq]
  rw [parse.eq_def]
  simp only [if_neg hset, if_neg hhalt, hprefix, String.ofList_toList]
  rfl

theorem parse_haltOnFault (rest : List String) :
    parse ("--halt-on-fault" :: rest) = (parse rest).map haltOnFault := by
  rw [parse.eq_def]
  show (do return (← parse rest).haltOnFault : Except UsageError RunOptions) = _
  cases parse rest <;> rfl

theorem append_binding (binding : Ref × Value) :
    RunOptions.append ⟨[binding], .proceed⟩ = withBinding binding := by
  funext ⟨bindings, policy⟩
  cases policy <;> rfl

/-- An item is read, and then what follows it. -/
theorem parse_item (item : Item) (rest : List String) :
    parse (item.words ++ rest) = item.read.bind fun o => (parse rest).map o.append := by
  have hset : ∀ text, parse ("--set" :: text :: rest) =
      (Item.set text).read.bind fun o => (parse rest).map o.append := by
    intro text
    rw [parse_set, Item.read]
    cases parseBinding text with
    | error e => rfl
    | ok binding =>
      show (parse rest).map (withBinding binding) = _
      rw [← append_binding]
      rfl
  cases item with
  | set text => exact hset text
  | setInline text => exact (parse_setInline text rest).trans (hset text)
  | haltOnFault => exact parse_haltOnFault rest

theorem parse_item_of_ok {item : Item} {o : RunOptions} (h : item.read = .ok o)
    (rest : List String) : parse (item.words ++ rest) = (parse rest).map o.append := by
  rw [parse_item, h]
  rfl

theorem parse_item_of_error {item : Item} {e : UsageError} (h : item.read = .error e)
    (rest : List String) : parse (item.words ++ rest) = .error e := by
  rw [parse_item, h]
  rfl

theorem parseBinding_ne_missingValue (text option : String) :
    parseBinding text ≠ .error (.missingValue option) := by
  intro h
  unfold parseBinding at h
  split at h
  · cases h
  · split at h
    · cases h
    · split at h <;> cases h

/-- An item has all its words, and so it is not without its text. -/
theorem Item.read_ne_missingValue (item : Item) (option : String) :
    item.read ≠ .error (.missingValue option) := by
  have hset : ∀ text, (Item.set text).read ≠ .error (.missingValue option) :=
    fun text h => parseBinding_ne_missingValue text option (eq_error_of_map_eq_error h)
  cases item with
  | set text => exact hset text
  | setInline text => exact hset text
  | haltOnFault => exact nofun

/-! ### Arguments in two parts -/

/-- What follows options that can be read is read by itself. -/
theorem parse_append_of_ok {xs : List String} {o : RunOptions} (h : parse xs = .ok o)
    (ys : List String) : parse (xs ++ ys) = (parse ys).map o.append := by
  induction xs using arguments_induction generalizing o with
  | nil =>
    obtain rfl := Except.ok.inj h
    have hid : default.append = id := funext default_append
    rw [hid, Except.map_id]
    rfl
  | set_alone => cases h
  | item item rest ih =>
    cases hread : item.read with
    | error e =>
      rw [parse_item_of_error hread] at h
      cases h
    | ok c =>
      rw [parse_item_of_ok hread] at h
      obtain ⟨o', hrest, rfl⟩ := exists_of_map_eq_ok h
      rw [List.append_assoc, parse_item_of_ok hread, ih hrest]
      cases parse ys with
      | error e => rfl
      | ok o'' => exact congrArg Except.ok (append_assoc c o' o'').symm
  | unknown arg rest hunknown =>
    rw [parse_unknown hunknown] at h
    cases h

/-- An error stays, whatever follows, unless it is that of a binding without its text. -/
theorem parse_append_of_error {xs : List String} {e : UsageError} (h : parse xs = .error e)
    (hmissing : ∀ option, e ≠ .missingValue option) (ys : List String) :
    parse (xs ++ ys) = .error e := by
  induction xs using arguments_induction with
  | nil => cases h
  | set_alone => exact absurd (Except.error.inj h).symm (hmissing "--set")
  | item item rest ih =>
    rw [List.append_assoc]
    cases hread : item.read with
    | error e' =>
      rw [parse_item_of_error hread] at h ⊢
      exact h
    | ok c =>
      -- the error is that of the rest
      rw [parse_item_of_ok hread] at h ⊢
      rw [ih (eq_error_of_map_eq_error h)]
      rfl
  | unknown arg rest hunknown =>
    rw [parse_unknown hunknown] at h
    rw [List.cons_append, parse_unknown hunknown]
    exact h

/-- Only the word that begins a binding, at the very end, is without its text. -/
theorem parse_eq_missingValue_iff {xs : List String} {option : String} :
    parse xs = .error (.missingValue option) ↔
      option = "--set" ∧ ∃ zs o, xs = zs ++ ["--set"] ∧ parse zs = .ok o := by
  constructor
  · intro h
    induction xs using arguments_induction with
    | nil => cases h
    | set_alone =>
      have hoption := UsageError.missingValue.inj (Except.error.inj h)
      exact ⟨hoption.symm, [], default, rfl, rfl⟩
    | item item rest ih =>
      cases hread : item.read with
      | error e =>
        rw [parse_item_of_error hread] at h
        exact absurd (hread.trans h) (item.read_ne_missingValue option)
      | ok c =>
        -- the error is that of the rest, and the item goes before the arguments found there
        rw [parse_item_of_ok hread] at h
        obtain ⟨hoption, zs, o, rfl, hzs⟩ := ih (eq_error_of_map_eq_error h)
        refine ⟨hoption, item.words ++ zs, c.append o, (List.append_assoc _ _ _).symm, ?_⟩
        rw [parse_item_of_ok hread, hzs]
        rfl
    | unknown arg rest hunknown =>
      rw [parse_unknown hunknown] at h
      cases h
  · rintro ⟨rfl, zs, o, rfl, hzs⟩
    rw [parse_append_of_ok hzs, parse_set_alone]
    rfl

/-! ### The first bad item -/

/-- Arguments that begin with something wrong, and what is wrong there. -/
inductive BeginsBad : List String → UsageError → Prop where
  /-- The word that begins a binding, without a text. -/
  | alone : BeginsBad ["--set"] (.missingValue "--set")
  | item (item : Item) (rest : List String) (e : UsageError) (h : item.read = .error e) :
    BeginsBad (item.words ++ rest) e
  | unknown (arg : String) (rest : List String) (h : Unknown arg) :
    BeginsBad (arg :: rest) (.unknownOption arg)

/-- After some items that can be read, arguments go on with something wrong. -/
def FirstBad (args : List String) (e : UsageError) : Prop :=
  ∃ (good : List Item) (rest : List String), args = good.flatMap Item.words ++ rest ∧
    (∀ item ∈ good, ∃ o, item.read = .ok o) ∧ BeginsBad rest e

theorem BeginsBad.firstBad {args : List String} {e : UsageError} (h : BeginsBad args e) :
    FirstBad args e :=
  ⟨[], args, rfl, nofun, h⟩

/-- An item that can be read may go before the first bad one. -/
theorem FirstBad.item {item : Item} {o : RunOptions} (hitem : item.read = .ok o)
    {args : List String} {e : UsageError} (h : FirstBad args e) :
    FirstBad (item.words ++ args) e := by
  obtain ⟨good, rest, rfl, hgood, hrest⟩ := h
  refine ⟨item :: good, rest, ?_, List.forall_mem_cons.mpr ⟨⟨o, hitem⟩, hgood⟩, hrest⟩
  rw [List.flatMap_cons, List.append_assoc]

theorem BeginsBad.parse_eq {args : List String} {e : UsageError} (h : BeginsBad args e) :
    parse args = .error e := by
  cases h with
  | alone => exact parse_set_alone
  | item item rest e h => exact parse_item_of_error h rest
  | unknown arg rest h => exact parse_unknown h rest

/-- Arguments are rejected for their first bad item. -/
theorem parse_eq_error_iff {args : List String} {e : UsageError} :
    parse args = .error e ↔ FirstBad args e := by
  constructor
  · intro h
    induction args using arguments_induction with
    | nil => cases h
    | set_alone =>
      obtain rfl := Except.error.inj h
      exact BeginsBad.alone.firstBad
    | item item rest ih =>
      cases hread : item.read with
      | error e' =>
        rw [parse_item_of_error hread] at h
        obtain rfl := Except.error.inj h
        exact (BeginsBad.item item rest e' hread).firstBad
      | ok o =>
        rw [parse_item_of_ok hread] at h
        exact (ih (eq_error_of_map_eq_error h)).item hread
    | unknown arg rest hunknown =>
      rw [parse_unknown hunknown] at h
      obtain rfl := Except.error.inj h
      exact (BeginsBad.unknown arg rest hunknown).firstBad
  · rintro ⟨good, rest, rfl, hgood, hrest⟩
    induction good with
    | nil => exact hrest.parse_eq
    | cons item good ih =>
      obtain ⟨⟨o, hread⟩, hgood⟩ := List.forall_mem_cons.mp hgood
      rw [List.flatMap_cons, List.append_assoc, parse_item_of_ok hread, ih hgood]
      rfl

/-! ### The main result -/

/-- **The arguments of a run are read item by item, up to the first that is wrong.**

If the first of two parts reads as some options, then both together read as those followed by what
the second part reads as, and have its error if it has one.  If the first part has an error, then
both together have it, unless it is that of a binding without its text.  This error arises just
where the word that begins a binding follows arguments that can be read; then the next word is the
text of the binding, whatever it is, and the two words may be written as one. -/
theorem parse_item_by_item :
    (∀ (xs ys : List String) (o : RunOptions), parse xs = .ok o →
      parse (xs ++ ys) = (parse ys).map o.append) ∧
    (∀ (xs : List String) (e : UsageError), parse xs = .error e →
      (∀ option, e ≠ .missingValue option) → ∀ ys, parse (xs ++ ys) = .error e) ∧
    (∀ (xs : List String) (option : String), parse xs = .error (.missingValue option) ↔
      option = "--set" ∧ ∃ zs o, xs = zs ++ ["--set"] ∧ parse zs = .ok o) ∧
    ∀ (zs : List String) (o : RunOptions), parse zs = .ok o → ∀ (text : String) (ys : List String),
      parse (zs ++ ["--set"] ++ [text] ++ ys) = parse (zs ++ ["--set=" ++ text] ++ ys) := by
  refine ⟨fun xs ys o h => parse_append_of_ok h ys,
    fun xs e h hmissing ys => parse_append_of_error h hmissing ys,
    fun xs option => parse_eq_missingValue_iff, ?_⟩
  intro zs o h text ys
  calc parse (zs ++ ["--set"] ++ [text] ++ ys)
      = parse (zs ++ "--set" :: text :: ys) := by
        rw [List.append_assoc, List.append_assoc]
        rfl
    _ = (parse ("--set" :: text :: ys)).map o.append := parse_append_of_ok h _
    _ = (parse (("--set=" ++ text) :: ys)).map o.append := by rw [parse_setInline]
    _ = parse (zs ++ ("--set=" ++ text) :: ys) := (parse_append_of_ok h _).symm
    _ = parse (zs ++ ["--set=" ++ text] ++ ys) := by
        rw [List.append_assoc]
        rfl

/-- Options before a binding in two words, whose text would be an option if it stood alone. -/
theorem parse_item_by_item_option_as_text :
    let xs := ["--set=R1=true", "--halt-on-fault"]
    let o : RunOptions := ⟨[(⟨1⟩, .bool true)], .halt⟩
    parse xs = .ok o ∧
      parse (xs ++ ["--set", "R1=false"]) =
        .ok ⟨[(⟨1⟩, .bool true), (⟨1⟩, .bool false)], .halt⟩ ∧
      parse ["--fast"] = .error (.unknownOption "--fast") ∧
      parse (["--fast"] ++ ["--set"]) = .error (.unknownOption "--fast") ∧
      parse (xs ++ ["--set"]) = .error (.missingValue "--set") ∧
      parse (xs ++ ["--set"] ++ ["--halt-on-fault"] ++ []) =
        .error (.malformedBinding "--halt-on-fault") := by
  intro xs o
  have hxs : parse xs = .ok o := rfl
  obtain ⟨hok, herror, hmissing, htext⟩ := parse_item_by_item
  refine ⟨hxs, hok xs _ o hxs, rfl, herror ["--fast"] _ rfl (fun _ => nofun) _,
    (hmissing _ _).mpr ⟨rfl, xs, o, rfl, hxs⟩, ?_⟩
  exact (htext xs o hxs "--halt-on-fault" []).trans rfl

end ParametricPlan.RunOptions
