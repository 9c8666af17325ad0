import Mathlib.Data.List.DropRight

/-!
# Letter Case and White Space

The two things done to a string that a person has typed before it is compared:
its letters are made lower case, and the white space around it is taken off.

Which letters have a lower case, and which one, is up to the locale of the
host, and may depend on the letters around them. `LowerCase` says no more of it
than the standard does of every locale: what has been made lower case is not
changed by doing it again, because it consists of characters that stay as they
are. That is enough for the two together to be idempotent (`normalize_idem`),
although taking off white space changes what the letters stand next to.

Taking off white space keeps the other characters in their order, so what was
settled before is settled afterwards. This is the only thing the two have to
do with each other.

## Main definitions

* `isTrimmed`, `trim`: White space, and taking it off both ends.
* `LowerCase`: How letters are made lower case.
* `LowerCase.normalize`: Lower case, without white space around.

## Theorems

* `trim_trim`, `LowerCase.normalize_idem`: Doing it again changes nothing.
* `toList_trim`, `mem_of_mem_trim`: What is left of a string.
* `toLower_eq_self_iff`: Lower case changes the capital letters.
-/

namespace Encoding

/-- White space, line terminators and the byte order mark. -/
def isTrimmed (c : Char) : Bool :=
  decide (c.toNat ∈ [9, 10, 11, 12, 13, 32, 160, 5760, 8232, 8233, 8239, 8287, 12288, 65279]) ||
    decide (8192 ≤ c.toNat ∧ c.toNat ≤ 8202)

/-- The string without the white space at its ends. -/
def trim (s : String) : String :=
  String.ofList ((s.toList.dropWhile isTrimmed).rdropWhile isTrimmed)

/-- The characters of a trimmed string. -/
theorem toList_trim (s : String) :
    (trim s).toList = (s.toList.dropWhile isTrimmed).rdropWhile isTrimmed := by
  rw [trim, String.toList_ofList]

/-- A trimmed string has no new characters. -/
theorem mem_of_mem_trim {s : String} {c : Char} (h : c ∈ (trim s).toList) : c ∈ s.toList := by
  rw [toList_trim] at h
  have hdropped := (List.rdropWhile_prefix isTrimmed _).subset h
  exact (List.dropWhile_suffix isTrimmed).subset hdropped

/-- A list that has been trimmed at its end begins as it did. Its first element
    was not to be dropped before, and still is not. -/
theorem dropWhile_rdropWhile {α : Type} {p : α → Bool} {l : List α} (h : l.dropWhile p = l) :
    (l.rdropWhile p).dropWhile p = l.rdropWhile p := by
  rw [List.dropWhile_eq_self_iff] at h ⊢
  intro hpos
  have hbegins := List.rdropWhile_prefix p (l := l)
  have hlong : 0 < l.length := Nat.lt_of_lt_of_le hpos hbegins.length_le
  rw [hbegins.getElem hpos]
  exact h hlong

/-- White space that has been taken off is gone. -/
theorem trim_trim (s : String) : trim (trim s) = trim s := by
  -- Trimming at the end has left no white space at the front.
  have hfront : ((trim s).toList).dropWhile isTrimmed = (trim s).toList := by
    rw [toList_trim]
    exact dropWhile_rdropWhile (List.dropWhile_idempotent (p := isTrimmed) s.toList)
  have hback : ((trim s).toList).rdropWhile isTrimmed = (trim s).toList := by
    rw [toList_trim]
    exact List.rdropWhile_idempotent isTrimmed _
  rw [← String.toList_inj, toList_trim, hfront, hback]

/-- How a locale makes letters lower case. Some characters are settled: a
    string of them stays as it is, and lower case consists of them. -/
structure LowerCase where
  toLocaleLowerCase : String → String
  Settled : Char → Prop
  settles : ∀ s, ∀ c ∈ (toLocaleLowerCase s).toList, Settled c
  keeps : ∀ s, (∀ c ∈ s.toList, Settled c) → toLocaleLowerCase s = s

namespace LowerCase

/-- Lower case, without white space around. -/
def normalize (locale : LowerCase) (s : String) : String := trim (locale.toLocaleLowerCase s)

/-- Bringing a string into its normal form again changes nothing. -/
theorem normalize_idem (locale : LowerCase) (s : String) :
    locale.normalize (locale.normalize s) = locale.normalize s := by
  -- Its characters are settled, because they were when it was made lower case.
  have hlower : locale.toLocaleLowerCase (locale.normalize s) = locale.normalize s :=
    locale.keeps _ (fun c hc => locale.settles s c (mem_of_mem_trim hc))
  rw [normalize, hlower]
  exact trim_trim _

/-- A letter that was made lower case stays as it is. -/
theorem toLower_toLower (c : Char) : c.toLower.toLower = c.toLower := by
  by_cases h : 'A'.val ≤ c.val ∧ c.val ≤ 'Z'.val
  · have hval : c.toLower.val = c.val + 32 := by
      unfold Char.toLower
      rw [dif_pos h]
      rfl
    -- A small letter is not a capital one.
    have hnot : ¬ ('A'.val ≤ c.toLower.val ∧ c.toLower.val ≤ 'Z'.val) := by
      rw [hval]
      simp only [UInt32.le_iff_toNat_le, UInt32.toNat_add] at h ⊢
      have hA : 'A'.val.toNat = 65 := rfl
      have hZ : 'Z'.val.toNat = 90 := rfl
      have h32 : (32 : UInt32).toNat = 32 := rfl
      omega
    generalize c.toLower = d at hnot
    unfold Char.toLower
    rw [dif_neg hnot]
  · have hsame : c.toLower = c := by
      unfold Char.toLower
      rw [dif_neg h]
    rw [hsame, hsame]

/-- Lower case changes the capital letters. It moves them by thirty-two, and
    leaves everything else alone. -/
theorem toLower_eq_self_iff {c : Char} : c.toLower = c ↔ c.isUpper = false := by
  by_cases h : 'A'.val ≤ c.val ∧ c.val ≤ 'Z'.val
  · have hval : c.toLower.val = c.val + 32 := by
      unfold Char.toLower
      rw [dif_pos h]
      rfl
    have hne : c.toLower ≠ c := by
      intro heq
      rw [heq] at hval
      have hsame := congrArg UInt32.toNat hval
      rw [UInt32.toNat_add, show (32 : UInt32).toNat = 32 from rfl] at hsame
      have hbound := c.val.toNat_lt
      omega
    have hup : c.isUpper = true := decide_eq_true h
    rw [hup]
    exact ⟨fun heq => absurd heq hne, fun hbad => by cases hbad⟩
  · have hsame : c.toLower = c := by
      unfold Char.toLower
      rw [dif_neg h]
    have hup : c.isUpper = false := decide_eq_false h
    exact ⟨fun _ => hup, fun _ => hsame⟩

/-- The letters without accents, and no others. -/
def ascii : LowerCase where
  toLocaleLowerCase := fun s => String.ofList (s.toList.map Char.toLower)
  Settled := fun c => c.toLower = c
  settles := fun s c hc => by
    rw [String.toList_ofList, List.mem_map] at hc
    rcases hc with ⟨d, _, rfl⟩
    exact toLower_toLower d
  keeps := fun s hs => by
    rw [List.map_congr_left (fun c hc => hs c hc), List.map_id', String.ofList_toList]

end LowerCase

end Encoding
