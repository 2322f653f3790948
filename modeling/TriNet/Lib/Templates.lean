import Mathlib.Data.List.Infix

namespace TriNet.Lib

inductive Template
  | fixed (text : String)
  | gap (head tail : String)
  deriving DecidableEq

namespace Template

variable {s t : Template}

def Parameters : Template → Type
  | fixed _ => Unit
  | gap _ _ => String

def fill : (t : Template) → t.Parameters → String
  | fixed text, _ => text
  | gap head tail, (parameter : String) => head ++ parameter ++ tail

def head : Template → List Char
  | fixed text => text.toList
  | gap head _ => head.toList

def tail : Template → List Char
  | fixed text => text.toList
  | gap _ tail => tail.toList

/-- Texts that start or end in different ways whatever their gaps hold. -/
def Apart (s t : Template) : Prop :=
  ¬ (s.head <+: t.head ∨ t.head <+: s.head) ∨ ¬ (s.tail <:+ t.tail ∨ t.tail <:+ s.tail)

instance (s t : Template) : Decidable (s.Apart t) := inferInstanceAs (Decidable (_ ∨ _))

theorem toList_fill_gap (head tail parameter : String) :
    ((gap head tail).fill parameter).toList = head.toList ++ (parameter.toList ++ tail.toList) := by
  change (head ++ parameter ++ tail).toList = _
  rw [String.toList_append, String.toList_append, List.append_assoc]

theorem head_isPrefix_fill (t : Template) (p : t.Parameters) : t.head <+: (t.fill p).toList := by
  cases t with
  | fixed text => exact List.prefix_rfl
  | gap head tail =>
      rw [toList_fill_gap head tail p]
      exact List.prefix_append _ _

theorem tail_isSuffix_fill (t : Template) (p : t.Parameters) : t.tail <:+ (t.fill p).toList := by
  cases t with
  | fixed text => exact List.suffix_rfl
  | gap head tail =>
      rw [toList_fill_gap head tail p, ← List.append_assoc]
      exact List.suffix_append _ _

theorem Apart.fill_ne (h : s.Apart t) (p : s.Parameters) (q : t.Parameters) : s.fill p ≠ t.fill q := by
  intro heq
  have hhead := t.head_isPrefix_fill q
  have htail := t.tail_isSuffix_fill q
  rw [← heq] at hhead htail
  obtain hdiffer | hdiffer := h
  · exact hdiffer (List.prefix_or_prefix_of_prefix (s.head_isPrefix_fill p) hhead)
  · exact hdiffer (List.suffix_or_suffix_of_suffix (s.tail_isSuffix_fill p) htail)

theorem fill_injective (t : Template) : Function.Injective t.fill := by
  intro p q h
  cases t with
  | fixed text => rfl
  | gap head tail =>
      have hlist := congrArg String.toList h
      rw [toList_fill_gap head tail p, toList_fill_gap head tail q] at hlist
      exact String.toList_inj.mp (List.append_cancel_right (List.append_cancel_left hlist))

end Template

end TriNet.Lib
