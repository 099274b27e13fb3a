import BuildMatrix.Glob.Match
import Mathlib.Data.List.Basic

/-!
# Bytes of texts

* `Glob.textBytes_eq`: the bytes of a text are those of its characters, one after the other.
* `Glob.textBytes_inj`: a text is known from its bytes.
-/

namespace BuildMatrix.Glob

theorem toList_loop (bs : ByteArray) (i : Nat) (r : List UInt8) :
    ByteArray.toList.loop bs i r = r.reverse ++ bs.data.toList.drop i := by
  fun_induction ByteArray.toList.loop bs i r with
  | case1 i r h ih =>
    have hi : i < bs.data.toList.length := h
    have hget : bs.get! i = bs.data.toList[i] := getElem!_pos bs.data i h
    rw [ih, List.drop_eq_getElem_cons hi, List.reverse_cons, List.append_assoc, hget,
      List.singleton_append]
  | case2 i r h =>
    have hi : bs.data.toList.length ≤ i := Nat.le_of_not_lt h
    rw [List.drop_eq_nil_of_le hi, List.append_nil]

theorem toList_eq (bs : ByteArray) : bs.toList = bs.data.toList :=
  toList_loop bs 0 []

theorem textBytes_empty : textBytes "" = [] := by
  rw [textBytes, toList_eq]
  rfl

theorem textBytes_append (s t : String) : textBytes (s ++ t) = textBytes s ++ textBytes t := by
  rw [textBytes, textBytes, textBytes, toList_eq, toList_eq, toList_eq, ← List.map_append,
    ← ByteArray.toList_data_append]
  rfl

/-- The bytes of a text are those of its characters, one after the other. -/
theorem textBytes_eq (s : String) : textBytes s = s.toList.flatMap bytesOf := by
  have hofList (cs : List Char) : textBytes (String.ofList cs) = cs.flatMap bytesOf := by
    induction cs with
    | nil => exact textBytes_empty
    | cons c cs ih =>
      rw [String.ofList_cons, textBytes_append, ih]
      rfl
  rw [← hofList, String.ofList_toList]

/-- A text is known from its bytes. -/
theorem textBytes_inj {s t : String} (h : textBytes s = textBytes t) : s = t := by
  have hbytes := List.map_injective_iff.mpr (fun _ _ => UInt8.toNat_inj.mp) h
  rw [toList_eq, toList_eq] at hbytes
  rw [← String.toByteArray_inj, ByteArray.ext_iff]
  exact Array.toList_inj.mp hbytes

theorem bytesOf_ne_nil (c : Char) : bytesOf c ≠ [] := by
  intro h
  have hbytes : textBytes (String.singleton c) = [] := h
  have hempty : textBytes (String.singleton c) = textBytes "" := hbytes.trans textBytes_empty.symm
  exact absurd (congrArg String.toList (textBytes_inj hempty)) (by simp)

end BuildMatrix.Glob
