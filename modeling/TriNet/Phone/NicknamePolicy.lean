import TriNet.CallApi.NicknameClaims
import TriNet.CallApi.Suggestions
import TriNet.Phone.Foundation

namespace TriNet.Phone

open CallApi Lib Lib.BigEndian Lib.EditDistance

/-- How Swift takes a text for characters and compares texts. Little is assumed
of it: in printable ASCII every scalar is a character, two of them are equal
only if they are the same, and so are two texts. -/
structure Characters (Character : Type) where
  split : String → List Character
  equal : String → String → Bool
  ofScalar : Char → Character
  split_graphic : ∀ s, IsGraphic s → split s = s.toList.map ofScalar
  equal_graphic : ∀ s t, IsGraphic s → IsGraphic t → equal s t = (s == t)
  ofScalar_inj : ∀ c d, isGraphic c = true → isGraphic d = true → ofScalar c = ofScalar d → c = d

theorem Characters.character_inj {Character : Type} (C : Characters Character)
    {s t : String} (hs : IsGraphic s)
    (ht : IsGraphic t) : ∀ c ∈ s.toList, ∀ d ∈ t.toList, C.ofScalar c = C.ofScalar d → c = d :=
  fun c hc d hd => C.ofScalar_inj c d (hs c hc) (ht d hd)

namespace NicknamePolicy

variable {Character : Type} [DecidableEq Character]

def commonPrefixLength (lhs rhs : List Character) : Nat :=
  ((lhs.zip rhs).takeWhile (fun p => p.1 == p.2)).length

def appendCell (previous : List Nat) (leftCharacter : Character) (current : List Nat)
    (right : Character × Nat) : List Nat :=
  current ++ [min (min (current.getD right.2 0 + 1) (previous.getD (right.2 + 1) 0 + 1))
    (previous.getD right.2 0 + if leftCharacter = right.1 then 0 else 1)]

def distanceRow (right : List Character) (previous : List Nat) (left : Character × Nat) : List Nat :=
  right.zipIdx.foldl (appendCell previous left.1) [left.2 + 1]

def editDistance (left right : List Character) : Nat :=
  if left.isEmpty then right.length
  else if right.isEmpty then left.length
  else (left.zipIdx.foldl (distanceRow right) (List.range (right.length + 1))).getD right.length 0

def isConfusing (F : Foundation) (C : Characters Character) (candidate existing : String) : Bool :=
  let lhs := F.normalize candidate
  let rhs := F.normalize existing
  if C.equal lhs rhs then true
  else
    let distance := editDistance (C.split lhs) (C.split rhs)
    if distance ≤ 1 then true
    else decide (commonPrefixLength (C.split lhs) (C.split rhs) ≥ 4) && distance == 2

section Rows

variable (a : Character) (xs : List Character)

theorem appendCell_row (front back : List Character) (b : Character) :
    appendCell (row xs [] (front ++ b :: back)) a (row (a :: xs) [] front) (b, front.length) =
      row (a :: xs) [] (front ++ [b]) := by
  have hdiagonal := getD_row_append xs [] front (b :: back)
  have habove := getD_row_append xs [] (front ++ [b]) back
  have hleft := row_getD (a :: xs) [] front
  rw [List.append_assoc, List.length_append, List.reverse_append] at habove
  simp only [List.append_nil] at hdiagonal habove hleft
  rw [appendCell, row_concat, List.append_nil, hleft, hdiagonal, distance]
  exact congrArg (fun cell => row (a :: xs) [] front ++
    [min (min (distance (a :: xs) front.reverse + 1) (cell + 1))
      (distance xs front.reverse + if a = b then 0 else 1)]) habove

theorem foldl_appendCell (front back : List Character) :
    (back.zipIdx front.length).foldl (appendCell (row xs [] (front ++ back)) a) (row (a :: xs) [] front) =
      row (a :: xs) [] (front ++ back) := by
  induction back generalizing front with
  | nil => simp
  | cons b back ih =>
      have hrest := ih (front ++ [b])
      rw [List.append_assoc, List.length_append] at hrest
      rw [List.zipIdx_cons, List.foldl_cons, appendCell_row]
      exact hrest

theorem distanceRow_row (right : List Character) :
    distanceRow right (row xs [] right) (a, xs.length) = row (a :: xs) [] right := by
  have hrow := foldl_appendCell a xs [] right
  rw [distanceRow]
  have hstart : row (a :: xs) [] [] = [xs.length + 1] := by simp [row]
  rwa [hstart, List.nil_append] at hrow

end Rows

theorem editDistance_eq_distance (left right : List Character) :
    editDistance left right = distance left.reverse right.reverse :=
  distance_of_rows (fun a xs => distanceRow_row a xs right) left

section Agreement

variable {F : Foundation} {C : Characters Character} {s t : String}

theorem utf8_of_graphic (h : IsGraphic s) : utf8 s = s.toList.map (fun c => c.val.toUInt8) := by
  conv_lhs => rw [← String.ofList_toList (s := s)]
  exact utf8_ofList_of_ascii (isAscii_iff.mp h.isAscii)

theorem byte_inj (hs : IsGraphic s) (ht : IsGraphic t) :
    ∀ c ∈ s.toList, ∀ d ∈ t.toList, c.val.toUInt8 = d.val.toUInt8 → c = d := by
  intro c hc d hd hbyte
  have hsmall : c.val.toNat < 128 := isAscii_iff.mp hs.isAscii c hc
  have hsmall' : d.val.toNat < 128 := isAscii_iff.mp ht.isAscii d hd
  have hnumber := congrArg UInt8.toNat hbyte
  rw [UInt32.toNat_toUInt8, UInt32.toNat_toUInt8, Nat.mod_eq_of_lt (Nat.lt_trans hsmall (by decide)),
    Nat.mod_eq_of_lt (Nat.lt_trans hsmall' (by decide))] at hnumber
  exact Char.toNat_inj.mp hnumber

theorem editDistance_split (hs : IsGraphic s) (ht : IsGraphic t) :
    editDistance (C.split s) (C.split t) = CallApi.editDistance (utf8 s) (utf8 t) := by
  have hmap {β : Type} [DecidableEq β] {f : Char → β} (hf : ∀ c ∈ s.toList, ∀ d ∈ t.toList,
      f c = f d → c = d) :
      distance (s.toList.map f).reverse (t.toList.map f).reverse =
        distance s.toList.reverse t.toList.reverse := by
    rw [← List.map_reverse, ← List.map_reverse]
    exact distance_map (fun c hc d hd => hf c (List.mem_reverse.mp hc) d (List.mem_reverse.mp hd))
  rw [editDistance_eq_distance, editDistance_eq, C.split_graphic s hs, C.split_graphic t ht,
    utf8_of_graphic hs, utf8_of_graphic ht, hmap (C.character_inj hs ht), hmap (byte_inj hs ht)]

theorem commonPrefixLength_split (hs : IsGraphic s) (ht : IsGraphic t) :
    commonPrefixLength (C.split s) (C.split t) = sharedPrefixLength (utf8 s) (utf8 t) := by
  rw [C.split_graphic s hs, C.split_graphic t ht, utf8_of_graphic hs, utf8_of_graphic ht]
  exact (sharedLength_map (C.character_inj hs ht)).trans (sharedLength_map (byte_inj hs ht)).symm

theorem isConfusing_eq {candidate existing : String} (hlhs : IsGraphic (F.normalize candidate))
    (hrhs : IsGraphic (F.normalize existing)) :
    isConfusing F C candidate existing =
      nicknamesAreConfusing (F.normalize candidate) (F.normalize existing) := by
  -- the server caps both numbers far above what they are compared with
  have hclose (n : Nat) : min n 255 ≤ NicknameDirectory.maxEditDistance ↔ n ≤ 1 := by
    rw [NicknameDirectory.maxEditDistance]
    omega
  have hshared (n : Nat) : min n 255 ≥ NicknameDirectory.minConfusingPrefix ↔ n ≥ 4 := by
    rw [NicknameDirectory.minConfusingPrefix]
    omega
  have htwo (n : Nat) : (min n 255 == 2) = (n == 2) := by
    rw [Bool.eq_iff_iff, beq_iff_eq, beq_iff_eq]
    omega
  simp only [isConfusing, nicknamesAreConfusing, NicknameDirectory.nicknameIsConfusing,
    C.equal_graphic _ _ hlhs hrhs,
    editDistance_split hlhs hrhs, commonPrefixLength_split hlhs hrhs, hclose, hshared, htwo]

theorem isGraphic_of_shapeValid (h : nicknameShapeValid s = true) : IsGraphic s :=
  isGraphic_of_forall_mem (by decide +kernel) (isNicknameText_of_shapeValid h).alphabet

theorem normalize_of_shapeValid (h : nicknameShapeValid s = true) : F.normalize s = s := by
  have hgraphic := isGraphic_of_shapeValid h
  have hlower : ∀ c ∈ nicknameAlphabet, c.toLower = c := forall_mem_of_all (by decide +kernel)
  rw [Foundation.normalize, hgraphic.trim_eq, Foundation.lowercased_of_graphic hgraphic
    (fun c hc => hlower c ((isNicknameText_of_shapeValid h).alphabet c hc))]

/-- The server accepts a normalised name exactly if the phone accepts the name. -/
theorem shapeValid_normalize_iff {value : String} :
    nicknameShapeValid (F.normalize value) = true ↔ F.validationError value = none := by
  have hletter : ∀ c ∈ nicknameAlphabet, c.isAlpha = c.isLower := forall_mem_of_all (by decide +kernel)
  have hstart (hall : ∀ c ∈ (F.normalize value).toList, c ∈ nicknameAlphabet) :
      (F.normalize value).toList.head?.any Char.isAlpha =
        (F.normalize value).toList.head?.any Char.isLower := by
    cases hchars : (F.normalize value).toList with
    | nil => rfl
    | cons c cs => exact hletter c (hall c (by rw [hchars]; exact List.mem_cons_self))
  rw [Foundation.validationError_eq_none_iff]
  constructor
  · intro h
    have htext := isNicknameText_of_shapeValid h
    have hgraphic := isGraphic_of_shapeValid h
    obtain ⟨hlength, -, -⟩ := bytes_of_shapeValid h
    rw [utf8_of_graphic hgraphic, List.length_map] at hlength
    rw [Foundation.count_of_graphic hgraphic, hstart htext.alphabet]
    exact ⟨hlength, htext.start, fun c hc => decide_eq_true (htext.alphabet c hc)⟩
  · rintro ⟨hcount, hfirst, hallowed⟩
    have hall : ∀ c ∈ (F.normalize value).toList, c ∈ nicknameAlphabet :=
      fun c hc => of_decide_eq_true (hallowed c hc)
    have hgraphic : IsGraphic (F.normalize value) := isGraphic_of_forall_mem (by decide +kernel) hall
    rw [Foundation.count_of_graphic hgraphic] at hcount
    rw [hstart hall] at hfirst
    have hshape := IsNicknameText.shapeValid ⟨hall, hfirst⟩ hcount.1 hcount.2
    rwa [String.ofList_toList] at hshape

end Agreement

/-- The server's distance is the length of a shortest script of single-byte
edits. Its comparison of nicknames does not depend on their order, and on those
it accepts it decides as the phone's does, as it does on what the phone makes of
those the phone accepts. -/
theorem confusing_agrees (F : Foundation) (C : Characters Character) :
    (∀ left right : Bytes, IsLeast {n | Edits n left right} (CallApi.editDistance left right)) ∧
      (∀ candidate existing, nicknameShapeValid candidate = true → nicknameShapeValid existing = true →
        nicknamesAreConfusing candidate existing = nicknamesAreConfusing existing candidate ∧
          isConfusing F C candidate existing = nicknamesAreConfusing candidate existing) ∧
      ∀ candidate existing, F.validationError candidate = none → F.validationError existing = none →
        isConfusing F C candidate existing =
          nicknamesAreConfusing (F.normalize candidate) (F.normalize existing) := by
  refine ⟨?_, ?_, ?_⟩
  · intro left right
    rw [editDistance_eq]
    exact isLeast_distance_reverse left right
  · intro candidate existing hcandidate hexisting
    have hsame : F.normalize candidate = candidate := normalize_of_shapeValid hcandidate
    have hsame' : F.normalize existing = existing := normalize_of_shapeValid hexisting
    refine ⟨nicknamesAreConfusing_comm candidate existing, ?_⟩
    rw [isConfusing_eq, hsame, hsame']
    · exact hsame.symm ▸ isGraphic_of_shapeValid hcandidate
    · exact hsame'.symm ▸ isGraphic_of_shapeValid hexisting
  · intro candidate existing hcandidate hexisting
    exact isConfusing_eq (isGraphic_of_shapeValid (shapeValid_normalize_iff.mpr hcandidate))
      (isGraphic_of_shapeValid (shapeValid_normalize_iff.mpr hexisting))

def plainCharacters : Characters Char where
  split := String.toList
  equal s t := s == t
  ofScalar c := c
  split_graphic s _ := (List.map_id' s.toList).symm
  equal_graphic _ _ _ _ := rfl
  ofScalar_inj _ _ _ _ h := h

theorem alice_confusing :
    nicknameShapeValid "alice" = true ∧ nicknameShapeValid "alicia" = true ∧
      isConfusing plainFoundation plainCharacters "alice" "alicia" =
        nicknamesAreConfusing "alice" "alicia" ∧
      nicknamesAreConfusing "alice" "alicia" = true := by
  have hshape : nicknameShapeValid "alice" = true ∧ nicknameShapeValid "alicia" = true ∧
      nicknamesAreConfusing "alice" "alicia" = true := by decide +kernel
  exact ⟨hshape.1, hshape.2.1,
    ((confusing_agrees plainFoundation plainCharacters).2.1 _ _ hshape.1 hshape.2.1).2, hshape.2.2⟩

end NicknamePolicy

end TriNet.Phone
