import NanoMQ.Library.Bytes

/-! Blocks of memory of a fixed size that hold a C string, and appending to the string. -/

namespace Blocks

open Bytes

/-- A block whose bytes are all zero. -/
def zalloc (size : Nat) : List UInt8 :=
  List.replicate size 0

/-- `strcat`: the text and a NUL are written from the first NUL on. There is no result if the
block has no NUL or ends before the text.
-/
def strcat (block text : List UInt8) : Option (List UInt8) :=
  (block.findIdx? fun byte => byte == 0).bind fun stop =>
    if stop + text.length < block.length then
      some (block.take stop ++ text ++ 0 :: block.drop (stop + text.length + 1))
    else none

/-- A string in front of zero bytes. -/
def filled (text : List UInt8) (spare : Nat) : List UInt8 :=
  text ++ List.replicate spare 0

theorem findIdx_filled {text : List UInt8} (nulFree : 0 ∉ text) (spare : Nat)
    : (filled text (spare + 1)).findIdx? (fun byte => byte == 0) = some text.length := by
  have noZero : text.findIdx? (fun byte => byte == 0) = none := by
    rw [List.findIdx?_eq_none_iff]
    intro byte member
    simpa using ne_of_mem_of_not_mem member nulFree
  simp [filled, List.findIdx?_append, noZero, List.replicate_succ, List.findIdx?_cons]

theorem strcat_filled {string text : List UInt8} (nulFree : 0 ∉ string) (spare : Nat)
    : strcat (filled string (text.length + spare + 1)) text
      = some (filled (string ++ text) (spare + 1)) := by
  have spared
      : (filled string (text.length + spare + 1)).drop (string.length + text.length + 1)
        = List.replicate spare 0 := by
    rw [filled, Nat.add_assoc, List.drop_length_add_append, List.drop_replicate]
    congr 1
    omega
  unfold strcat
  rw [findIdx_filled nulFree, Option.bind_some, if_pos (by simp [filled]), spared]
  simp [filled, List.replicate_succ]

theorem cstr_filled {text : List UInt8} (nulFree : 0 ∉ text) (spare : Nat)
    : cstr (filled text (spare + 1)) = text := by
  rw [filled, List.replicate_succ, cstr, List.takeWhile_append_of_pos]
  · simp
  · intro byte member
    simpa using ne_of_mem_of_not_mem member nulFree

end Blocks
