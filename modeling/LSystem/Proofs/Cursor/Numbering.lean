import LSystem.Cursor.Place

namespace LSystem

/-!
# Levels by number

A level with a focus is a list of elements and a number: how many of them have
been reached.  Moving the focus by one element changes the number by one, so a
search of a level can be followed number by number.
-/

variable {V : Type}

/-! ## Elements -/

/-- The module that an element is. -/
def Element.letter? : Element V → Option (Module V)
  | .leaf letter => some letter
  | .branch _ => none

@[simp]
theorem Element.isVisible_leaf (ignore : List Symbol) (letter : Module V) :
    (Element.leaf letter).isVisible ignore = !ignore.contains letter.symbol := rfl

@[simp]
theorem Element.isVisible_branch (ignore : List Symbol) (contents : Forest V) :
    (Element.branch contents).isVisible ignore = false := rfl

namespace Level

/-- A level whose focus is on the last of its first `count` elements.  It is in
front of the level for none, and behind it for more than there are. -/
def upTo (contents : Forest V) : Nat → Level V
  | 0 => .start contents
  | count + 1 => ⟨(contents.take count).reverse, contents[count]?, contents.drop (count + 1)⟩

/-- One element to the right. -/
theorem upTo_succ {contents : Forest V} {count : Nat} {element : Element V}
    (here : contents[count]? = some element) :
    ∃ left focus right, upTo contents count = ⟨left, focus, element :: right⟩ ∧
      upTo contents (count + 1) = ⟨focus.toList ++ left, some element, right⟩ := by
  have ahead : contents.drop count = element :: contents.drop (count + 1) := by
    rw [List.drop_eq_getElem?_toList_append, here]
    rfl
  cases count with
  | zero =>
      refine ⟨[], none, contents.drop 1, ?_, ?_⟩
      · rw [upTo, start, ← ahead, List.drop_zero]
      · rw [upTo, here]
        rfl
  | succ count =>
      refine ⟨(contents.take count).reverse, contents[count]?, contents.drop (count + 2), ?_, ?_⟩
      · rw [upTo, ahead]
      · rw [upTo, here, List.take_add_one, List.reverse_append]
        cases contents[count]? <;> rfl

/-- One element to the left. -/
theorem upTo_pred {contents : Forest V} {count : Nat} {element : Element V}
    (here : contents[count]? = some element) :
    ∃ left focus right, upTo contents (count + 2) = ⟨element :: left, focus, right⟩ ∧
      upTo contents (count + 1) = ⟨left, some element, focus.toList ++ right⟩ := by
  refine ⟨(contents.take count).reverse, contents[count + 1]?, contents.drop (count + 2), ?_, ?_⟩
  · rw [upTo, List.take_add_one, here, List.reverse_append]
    rfl
  · rw [upTo, here, ← List.drop_eq_getElem?_toList_append]

theorem upTo_of_length_lt {contents : Forest V} {count : Nat} (behind : contents.length < count) :
    upTo contents count = ⟨contents.reverse, none, []⟩ := by
  cases count with
  | zero => exact absurd behind (Nat.not_lt_zero _)
  | succ count =>
      have enough : contents.length ≤ count := Nat.le_of_lt_succ behind
      rw [upTo, List.take_of_length_le enough, List.getElem?_eq_none enough,
        List.drop_of_length_le (Nat.le_succ_of_le enough)]

@[simp]
theorem right_upTo (contents : Forest V) (count : Nat) :
    (upTo contents count).right = contents.drop count := by
  cases count <;> rfl

theorem passed_upTo (contents : Forest V) (count : Nat) :
    (upTo contents count).focus.toList ++ (upTo contents count).left =
      (contents.take count).reverse := by
  cases count with
  | zero => rfl
  | succ count =>
      rw [upTo, List.take_add_one, List.reverse_append]
      cases contents[count]? <;> rfl

/-- A focus in front of or on the first element can only be moved in front of it. -/
theorem seekLeft_upTo_of_le_one (accepts : Element V → Bool) {contents : Forest V} {count : Nat}
    (first : count ≤ 1) : (upTo contents count).seekLeft accepts = upTo contents 0 := by
  have whole : contents[0]?.toList ++ contents.drop 1 = contents := by
    rw [← List.drop_eq_getElem?_toList_append, List.drop_zero]
  rcases Nat.le_one_iff_eq_zero_or_eq_one.mp first with rfl | rfl
  · rfl
  · simp only [upTo, seekLeft, seekRight, flip, settle, List.take_zero, List.reverse_nil, whole,
      start]

/-- A focus on the last element or behind it can only be moved behind it. -/
theorem seekRight_upTo_of_length_le (accepts : Element V → Bool) {contents : Forest V} {count : Nat}
    (last : contents.length ≤ count) :
    (upTo contents count).seekRight accepts = upTo contents (contents.length + 1) := by
  have none : (upTo contents count).right = [] := by simpa using last
  have all : (upTo contents count).focus.toList ++ (upTo contents count).left =
      contents.reverse := by
    rw [passed_upTo, List.take_of_length_le last]
  rw [upTo_of_length_lt (Nat.lt_succ_self _), seekRight, none, all, settle]

theorem seekRight_upTo (accepts : Element V → Bool) {contents : Forest V} {count : Nat}
    {element : Element V} (here : contents[count]? = some element) :
    (upTo contents count).seekRight accepts =
      if accepts element then upTo contents (count + 1)
      else (upTo contents (count + 1)).seekRight accepts := by
  rcases upTo_succ here with ⟨left, focus, right, before, after⟩
  rw [before, after]
  rfl

theorem seekLeft_upTo (accepts : Element V → Bool) {contents : Forest V} {count : Nat}
    {element : Element V} (here : contents[count]? = some element) :
    (upTo contents (count + 2)).seekLeft accepts =
      if accepts element then upTo contents (count + 1)
      else (upTo contents (count + 1)).seekLeft accepts := by
  rcases upTo_pred here with ⟨left, focus, right, before, after⟩
  rw [before, after]
  simp only [seekLeft, seekRight, flip, settle]
  split <;> rfl

theorem passesBranch_upTo (ignore : List Symbol) {contents : Forest V} {count : Nat}
    {element : Element V} (here : contents[count]? = some element) :
    (upTo contents (count + 2)).passesBranch ignore =
      (!element.isVisible ignore &&
        (element.isBranch || (upTo contents (count + 1)).passesBranch ignore)) := by
  rcases upTo_pred here with ⟨left, focus, right, before, after⟩
  rw [before, after]
  cases visible : element.isVisible ignore <;> simp [passesBranch, visible]

theorem passesBranch_upTo_of_le_one (ignore : List Symbol) {contents : Forest V} {count : Nat}
    (first : count ≤ 1) : (upTo contents count).passesBranch ignore = false := by
  rcases Nat.le_one_iff_eq_zero_or_eq_one.mp first with rfl | rfl <;> rfl

theorem letter?_eq (level : Level V) : level.letter? = level.focus.bind (·.letter?) := by
  rcases level with ⟨left, _ | _ | _, right⟩ <;> rfl

end Level

end LSystem
