/-
ParametricPlan/Proofs/Text/Quoted.lean

Quoted texts end at their closing marks.

Each character reads back from its escape, and so does what follows it (`readChar?_escape`), while
no escape begins with the quotation mark (`escape_append_ne`).  Hence a quoted text may hold any
characters, the mark and the brackets of what it is part of among them, and still tells what was
quoted and where it ends.  `quote_append_inj` is the main result.
-/
import ParametricPlan.Proofs.Text.Run
import ParametricPlan.Text.Quoted

namespace ParametricPlan.Quoted

/-! ### Hexadecimal digits -/

/-- The number that a hexadecimal digit stands for. -/
def digitValue (d : Char) : Nat :=
  if d.isDigit then d.toNat - '0'.toNat else d.toNat - 'a'.toNat + 10

/-- The number that a list of hexadecimal digits stands for. -/
def hexValue (ds : List Char) : Nat :=
  ds.foldl (fun n d => 16 * n + digitValue d) 0

/-- Each of the sixteen digits has its value. -/
theorem digitValue_digitChar : ∀ n < 16, digitValue n.digitChar = n := by
  decide

/-- No digit is the brace that ends a number. -/
theorem digitChar_ne_brace : ∀ n < 16, n.digitChar ≠ '\x7d' := by
  decide

theorem hexValue_append_singleton (ds : List Char) (d : Char) :
    hexValue (ds ++ [d]) = 16 * hexValue ds + digitValue d :=
  List.foldl_append

/-- What holds of the sixteen digits holds of all characters of a number. -/
theorem forall_mem_toDigits {q : Char → Prop} (h : ∀ n < 16, q n.digitChar) (n : Nat) :
    ∀ d ∈ Nat.toDigits 16 n, q d := by
  induction n using Nat.strongRecOn with
  | ind n ih =>
    by_cases hn : n < 16
    · rw [Nat.toDigits_of_lt_base hn]
      exact List.forall_mem_singleton.mpr (h n hn)
    · rw [Nat.toDigits_of_base_le (by decide) (by omega)]
      exact List.forall_mem_append.mpr ⟨ih (n / 16) (by omega),
        List.forall_mem_singleton.mpr (h (n % 16) (by omega))⟩

/-- A number reads back from its hexadecimal digits. -/
theorem hexValue_toDigits (n : Nat) : hexValue (Nat.toDigits 16 n) = n := by
  induction n using Nat.strongRecOn with
  | ind n ih =>
    by_cases hn : n < 16
    · rw [Nat.toDigits_of_lt_base hn]
      exact (Nat.zero_add _).trans (digitValue_digitChar n hn)
    · -- the last digit comes off, as it does when the number is written
      rw [Nat.toDigits_of_base_le (by decide) (by omega), hexValue_append_singleton,
        ih (n / 16) (by omega), digitValue_digitChar (n % 16) (by omega)]
      omega

/-! ### Escapes -/

/-- What a letter after a backslash stands for. -/
def letters : List (Char × Char) :=
  [('0', '\x00'), ('t', '\t'), ('n', '\n'), ('r', '\r'), ('"', '"'), ('\\', '\\')]

/-- Reads the number of a character, up to the brace that closes it. -/
def readNumbered (cs : List Char) : Char × List Char :=
  let (digits, rest) := cs.span (· != '\x7d')
  (Char.ofNat (hexValue digits), rest.tail)

/-- Reads one character between quotation marks, and gives what follows it. -/
def readChar? : List Char → Option (Char × List Char)
  | '\\' :: 'u' :: '\x7b' :: cs => some (readNumbered cs)
  | '\\' :: letter :: cs => (letters.lookup letter).map fun c => (c, cs)
  | c :: cs => some (c, cs)
  | [] => none

/-- A character reads back from its number in braces. -/
theorem readNumbered_toDigits (c : Char) (rest : List Char) :
    readNumbered (Nat.toDigits 16 c.toNat ++ '\x7d' :: rest) = (c, rest) := by
  have hdigits : ∀ d ∈ Nat.toDigits 16 c.toNat, (d != '\x7d') = true :=
    forall_mem_toDigits (fun n hn => bne_iff_ne.mpr (digitChar_ne_brace n hn)) _
  have hbrace : ∀ d ∈ ('\x7d' :: rest).head?, (d != '\x7d') = false := by
    rintro d ⟨⟩
    rfl
  simp only [readNumbered, span_run hdigits hbrace, hexValue_toDigits, Char.ofNat_toNat,
    List.tail_cons]

/-- What is no backslash stands for itself. -/
theorem readChar?_of_ne {c : Char} (h : c ≠ '\\') (rest : List Char) :
    readChar? (c :: rest) = some (c, rest) := by
  unfold readChar?
  split <;> simp_all

/-- Every character reads back from its escape. -/
theorem readChar?_escape (c : Char) (rest : List Char) :
    readChar? (escape c ++ rest) = some (c, rest) := by
  unfold escape
  split
  case h_7 _ hslash =>
    -- what is not among the escapes by a letter is written as it is, or by its number
    split
    · exact readChar?_of_ne hslash rest
    · simp only [List.cons_append, List.append_assoc, List.nil_append, readChar?,
        readNumbered_toDigits]
  all_goals rfl

/-- A quotation mark that no escape covers is the end. -/
theorem escape_append_ne (c : Char) (rest text : List Char) : escape c ++ rest ≠ '"' :: text := by
  intro h
  -- reading one character tells that it was the mark itself, whose escape begins otherwise
  have hread := readChar?_escape c rest
  rw [h, readChar?_of_ne (by decide)] at hread
  obtain rfl : '"' = c := congrArg Prod.fst (Option.some.inj hread)
  cases h

/-! ### Quoted texts -/

/-- Escapes are read one by one, until a mark ends them. -/
theorem flatMap_escape_append_inj {cs ds s t : List Char}
    (h : cs.flatMap escape ++ '"' :: s = ds.flatMap escape ++ '"' :: t) : cs = ds ∧ s = t := by
  induction cs generalizing ds with
  | nil =>
    rcases ds with - | ⟨d, ds⟩
    · exact ⟨rfl, (List.cons.inj h).2⟩
    · rw [List.flatMap_cons, List.append_assoc] at h
      -- one text ends where the other goes on with an escape
      exact absurd h.symm (escape_append_ne d _ s)
  | cons c cs ih =>
    rw [List.flatMap_cons, List.append_assoc] at h
    rcases ds with - | ⟨d, ds⟩
    · exact absurd h (escape_append_ne c _ t)
    · -- both go on, and the next escape reads back in one way only
      rw [List.flatMap_cons, List.append_assoc] at h
      have hread := readChar?_escape c (cs.flatMap escape ++ '"' :: s)
      rw [h, readChar?_escape] at hread
      have hpair := Option.some.inj hread
      obtain ⟨rfl, rfl⟩ := ih (congrArg Prod.snd hpair).symm
      exact ⟨congrArg (· :: cs) (congrArg Prod.fst hpair).symm, rfl⟩

theorem toList_quote (text : String) :
    (quote text).toList = '"' :: (text.toList.flatMap escape ++ ['"']) :=
  String.toList_ofList

/-- **A quoted text tells what was quoted, and where it ends.** -/
theorem quote_append_inj {text text' : String} {s t : List Char}
    (h : (quote text).toList ++ s = (quote text').toList ++ t) : text = text' ∧ s = t := by
  simp only [toList_quote, List.cons_append, List.append_assoc, List.nil_append,
    List.cons.injEq, true_and] at h
  obtain ⟨htext, hrest⟩ := flatMap_escape_append_inj h
  exact ⟨String.toList_inj.mp htext, hrest⟩

/-- No two texts are quoted alike. -/
theorem quote_injective : Function.Injective quote :=
  fun _ _ h => (quote_append_inj (congrArg (String.toList · ++ []) h)).1

end ParametricPlan.Quoted
