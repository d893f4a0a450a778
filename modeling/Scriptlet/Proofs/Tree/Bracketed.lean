import Mathlib.Data.String.Basic

namespace Scriptlet

/-!
# Bracketed texts

Items in brackets, with a space between any two of them, can be told apart if every space
inside an item stands in brackets of its own: reading goes on to the first space or closing
bracket outside all brackets, and that is where the item ends.
-/

/-! ## Closed texts -/

/-- Whether the brackets of a text, together with the given number of open brackets before
it, are closed at its end and not before, so that no mark in it stands outside all
brackets. -/
inductive Sealed (isMark : Char → Bool) : Nat → List Char → Prop where
  | nil : Sealed isMark 0 []
  | opening
      (inside : Sealed isMark (depth + 1) rest) :
      Sealed isMark depth ('(' :: rest)
  | closing
      (behind : Sealed isMark depth rest) :
      Sealed isMark (depth + 1) (')' :: rest)
  | other
      (notOpening : character ≠ '(')
      (notClosing : character ≠ ')')
      (notMark : depth = 0 → isMark character = false)
      (behind : Sealed isMark depth rest) :
      Sealed isMark depth (character :: rest)

/-- Whether a text ends here, or goes on with a closing bracket or a mark. -/
def EndsItem (isMark : Char → Bool) (rest : List Char) : Prop :=
  ∀ character ∈ rest.head?, character ≠ '(' ∧ (character = ')' ∨ isMark character = true)

namespace Sealed

variable {isMark : Char → Bool} {depth : Nat} {text other rest otherRest : List Char}

theorem append
    (first : Sealed isMark depth text)
    (second : Sealed isMark 0 other) :
    Sealed isMark depth (text ++ other) := by
  induction first with
  | nil => exact second
  | opening _ inductionHypothesis => exact .opening inductionHypothesis
  | closing _ inductionHypothesis => exact .closing inductionHypothesis
  | other notOpening notClosing notMark _ inductionHypothesis =>
      exact .other notOpening notClosing notMark inductionHypothesis

/-- With brackets around them, marks do not matter. -/
theorem enclosed
    {isOtherMark : Char → Bool}
    (inside : Sealed isMark depth text)
    (behind : Sealed isOtherMark 0 rest) :
    Sealed isOtherMark (depth + 1) (text ++ ')' :: rest) := by
  induction inside with
  | nil => exact .closing behind
  | opening _ inductionHypothesis => exact .opening inductionHypothesis
  | closing _ inductionHypothesis => exact .closing inductionHypothesis
  | other notOpening notClosing _ _ inductionHypothesis =>
      exact .other notOpening notClosing nofun inductionHypothesis

theorem weaken
    {isOtherMark : Char → Bool}
    (fewer : ∀ character, isOtherMark character = true → isMark character = true)
    (isSealed : Sealed isMark depth text) :
    Sealed isOtherMark depth text := by
  induction isSealed with
  | nil => exact .nil
  | opening _ inductionHypothesis => exact .opening inductionHypothesis
  | closing _ inductionHypothesis => exact .closing inductionHypothesis
  | @other character depth rest notOpening notClosing notMark _ inductionHypothesis =>
      refine .other notOpening notClosing (fun outside => ?_) inductionHypothesis
      by_contra isMarked
      have isMark := fewer character (by simpa using isMarked)
      rw [notMark outside] at isMark
      cases isMark

/-- A text without brackets and marks. -/
theorem of_plain
    (isPlain : ∀ character ∈ text,
      character ≠ '(' ∧ character ≠ ')' ∧ isMark character = false) :
    Sealed isMark 0 text := by
  induction text with
  | nil => exact .nil
  | cons first rest inductionHypothesis =>
      obtain ⟨⟨notOpening, notClosing, notMark⟩, restPlain⟩ :=
        List.forall_mem_cons.mp isPlain
      exact .other notOpening notClosing (fun _ => notMark) (inductionHypothesis restPlain)

/-- Where a closed text ends is determined by the text that it is the beginning of. -/
theorem append_inj
    (isSealed : Sealed isMark depth text)
    (otherSealed : Sealed isMark depth other)
    (ends : EndsItem isMark rest)
    (otherEnds : EndsItem isMark otherRest)
    (same : text ++ rest = other ++ otherRest) :
    text = other ∧ rest = otherRest := by
  induction isSealed generalizing other with
  | nil =>
      cases otherSealed with
      | nil => exact ⟨rfl, same⟩
      | opening =>
          obtain rfl : rest = _ := same
          exact absurd rfl (ends _ rfl).1
      | other _ notClosing notMark =>
          obtain rfl : rest = _ := same
          rcases (ends _ rfl).2 with isClosing | isMarked
          · exact absurd isClosing notClosing
          · rw [notMark rfl] at isMarked
            cases isMarked
  | opening _ inductionHypothesis =>
      cases otherSealed with
      | nil =>
          obtain rfl : otherRest = _ := same.symm
          exact absurd rfl (otherEnds _ rfl).1
      | opening inside =>
          obtain ⟨rfl, sameRest⟩ := inductionHypothesis inside (List.cons.inj same).2
          exact ⟨rfl, sameRest⟩
      | closing => cases same
      | other notOpening => exact absurd (List.cons.inj same).1.symm notOpening
  | closing _ inductionHypothesis =>
      cases otherSealed with
      | opening => cases same
      | closing behind =>
          obtain ⟨rfl, sameRest⟩ := inductionHypothesis behind (List.cons.inj same).2
          exact ⟨rfl, sameRest⟩
      | other _ notClosing => exact absurd (List.cons.inj same).1.symm notClosing
  | other notOpening notClosing notMark _ inductionHypothesis =>
      cases otherSealed with
      | nil =>
          obtain rfl : otherRest = _ := same.symm
          rcases (otherEnds _ rfl).2 with isClosing | isMarked
          · exact absurd isClosing notClosing
          · rw [notMark rfl] at isMarked
            cases isMarked
      | opening => exact absurd (List.cons.inj same).1 notOpening
      | closing => exact absurd (List.cons.inj same).1 notClosing
      | other _ _ _ behind =>
          obtain ⟨rfl, sameLater⟩ := List.cons.inj same
          obtain ⟨rfl, sameRest⟩ := inductionHypothesis behind sameLater
          exact ⟨rfl, sameRest⟩

end Sealed

/-! ## Items in brackets -/

/-- Whether a text is one item among others. -/
structure IsItem (text : String) : Prop where
  someText : text ≠ ""
  isSealed : Sealed (· == ' ') 0 text.toList

/-- Items in brackets, with a space between any two of them. -/
def bracketed (items : List String) : String :=
  "(" ++ " ".intercalate items ++ ")"

/-- Items with a space in front of each. -/
def spaced (items : List String) : List Char :=
  items.flatMap fun item => ' ' :: item.toList

theorem toList_intercalate_cons
    (first : String)
    (rest : List String) :
    (" ".intercalate (first :: rest)).toList = first.toList ++ spaced rest := by
  induction rest generalizing first with
  | nil =>
      simp [spaced]
  | cons second rest inductionHypothesis =>
      rw [String.intercalate_cons_cons, String.toList_append, inductionHypothesis]
      simp [spaced]

theorem toList_bracketed_cons
    (first : String)
    (rest : List String) :
    (bracketed (first :: rest)).toList =
      '(' :: (first.toList ++ (spaced rest ++ [')'])) := by
  rw [bracketed, String.toList_append, String.toList_append, toList_intercalate_cons]
  simp

theorem endsItem_spaced (rest : List String) :
    EndsItem (· == ' ') (spaced rest ++ [')']) := by
  cases rest with
  | nil => simp [EndsItem, spaced]
  | cons first later => simp [EndsItem, spaced]

theorem spaced_injective
    {items others : List String}
    (areItems : ∀ item ∈ items, IsItem item)
    (otherItems : ∀ item ∈ others, IsItem item)
    (same : spaced items ++ [')'] = spaced others ++ [')']) :
    items = others := by
  induction items generalizing others with
  | nil =>
      cases others with
      | nil => rfl
      | cons first rest => cases same
  | cons item items inductionHypothesis =>
      cases others with
      | nil => cases same
      | cons other others =>
          obtain ⟨isItem, areItems⟩ := List.forall_mem_cons.mp areItems
          obtain ⟨otherItem, otherItems⟩ := List.forall_mem_cons.mp otherItems
          have sameInside : item.toList ++ (spaced items ++ [')']) =
              other.toList ++ (spaced others ++ [')']) := by
            simpa [spaced] using same
          obtain ⟨sameItem, sameRest⟩ := isItem.isSealed.append_inj otherItem.isSealed
            (endsItem_spaced items) (endsItem_spaced others) sameInside
          rw [String.toList_inj.mp sameItem,
            inductionHypothesis areItems otherItems sameRest]

theorem toList_bracketed_nil :
    (bracketed []).toList = ['(', ')'] := by
  simp [bracketed]

theorem bracketed_nil_ne
    {first : String}
    (isItem : IsItem first)
    (rest : List String) :
    bracketed [] ≠ bracketed (first :: rest) := by
  intro same
  have sameText := congrArg String.toList same
  rw [toList_bracketed_nil, toList_bracketed_cons] at sameText
  have sameLength := congrArg List.length sameText
  simp only [List.length_cons, List.length_append, List.length_nil] at sameLength
  have noText : first.toList = [] := List.length_eq_zero_iff.mp (by omega)
  exact isItem.someText (String.toList_eq_nil_iff.mp noText)

/-- Items in brackets can be told apart. -/
theorem bracketed_injective
    {items others : List String}
    (areItems : ∀ item ∈ items, IsItem item)
    (otherItems : ∀ item ∈ others, IsItem item)
    (same : bracketed items = bracketed others) :
    items = others := by
  cases items with
  | nil =>
      cases others with
      | nil => rfl
      | cons other others =>
          exact absurd same (bracketed_nil_ne (otherItems other List.mem_cons_self) others)
  | cons item items =>
      cases others with
      | nil =>
          exact absurd same.symm (bracketed_nil_ne (areItems item List.mem_cons_self) items)
      | cons other others =>
          -- With a space in front of the first items, too, the texts are spaced items.
          apply spaced_injective areItems otherItems
          have sameText := congrArg String.toList same
          rw [toList_bracketed_cons, toList_bracketed_cons] at sameText
          simpa [spaced] using sameText

theorem sealed_spaced
    {items : List String}
    (areItems : ∀ item ∈ items, IsItem item) :
    Sealed (fun _ => false) 0 (spaced items) := by
  induction items with
  | nil => exact .nil
  | cons item items inductionHypothesis =>
      obtain ⟨isItem, areItems⟩ := List.forall_mem_cons.mp areItems
      have inside : Sealed (fun _ => false) 0 item.toList :=
        isItem.isSealed.weaken nofun
      exact .other (by decide) (by decide) (fun _ => rfl)
        (inside.append (inductionHypothesis areItems))

/-- Items in brackets are closed whatever the marks are. -/
theorem sealed_bracketed
    {isMark : Char → Bool}
    {items : List String}
    (areItems : ∀ item ∈ items, IsItem item) :
    Sealed isMark 0 (bracketed items).toList := by
  cases items with
  | nil =>
      rw [toList_bracketed_nil]
      exact .opening (.closing .nil)
  | cons item items =>
      obtain ⟨isItem, areItems⟩ := List.forall_mem_cons.mp areItems
      have inside : Sealed (fun _ => false) 0 item.toList :=
        isItem.isSealed.weaken nofun
      rw [toList_bracketed_cons, ← List.append_assoc]
      exact .opening ((inside.append (sealed_spaced areItems)).enclosed .nil)

theorem bracketed_ne_empty (items : List String) :
    bracketed items ≠ "" := by
  intro isEmpty
  have noText := congrArg String.toList isEmpty
  simp [bracketed] at noText

/-- Items in brackets are one item. -/
theorem isItem_bracketed
    {items : List String}
    (areItems : ∀ item ∈ items, IsItem item) :
    IsItem (bracketed items) :=
  ⟨bracketed_ne_empty items, sealed_bracketed areItems⟩

end Scriptlet
