import Mathlib.Algebra.GroupWithZero.Nat
import Mathlib.Data.Rat.Defs
import ScreenSharing.Lib.Bytes

/-!
# JSON values and buffers

What a program in JavaScript sees of JSON: the values that `JSON.parse` returns, with numbers that may
have overflowed to an infinity, and what reading a member of such a value does.  How a value is
written and read as text is up to the runtime (`JsonRuntime`); `Undoes` is the law that matters.

An operation that may throw returns in `Except Fault`.  The reads of a buffer are here too: a byte
outside of it is a fault, not a default.
-/

namespace ScreenSharing.Lib

/-- What is thrown. -/
inductive Fault
  | rangeError
  | typeError
  | syntaxError
  deriving DecidableEq

/-! ### Values -/

inductive JsNumber
  | finite (value : ℚ)
  | infinite (negative : Bool)
  deriving DecidableEq

inductive Json
  | null
  | bool (b : Bool)
  | num (n : JsNumber)
  | str (s : String)
  | arr (items : List Json)
  | obj (members : List (String × Json))

/-- A number that counts something. -/
def Json.nat (n : ℕ) : Json := .num (.finite n)

/-- `v[key]`, for a key that no value has unless it is its own: `none` is `undefined`. -/
def Json.member (key : String) : Json → Except Fault (Option Json)
  | .null => .error .typeError
  | .obj members => .ok (members.lookup key)
  | _ => .ok none

/-- `length` of a string: its UTF-16 code units. -/
def utf16Length (s : String) : ℕ :=
  (s.toList.map fun c => if c.toNat < 0x10000 then 1 else 2).sum

/-- The first `n` code units; half a surrogate pair at the end is shown as U+FFFD. -/
def utf16Take : ℕ → List Char → List Char
  | _, [] => []
  | n, c :: cs =>
    let width := if c.toNat < 0x10000 then 1 else 2
    if width ≤ n then c :: utf16Take (n - width) cs
    else if n = 0 then [] else [Char.ofNat 0xfffd]

/-- `slice(0, n)` of a string. -/
def utf16Slice (n : ℕ) (s : String) : String := String.ofList (utf16Take n s.toList)

theorem utf16Take_sum (cs : List Char) : ∀ n,
    ((utf16Take n cs).map fun c => if c.toNat < 0x10000 then 1 else 2).sum ≤ n := by
  induction cs with
  | nil => exact fun n => Nat.zero_le n
  | cons c cs ih =>
    intro n
    unfold utf16Take
    dsimp only
    by_cases hfits : (if c.toNat < 0x10000 then 1 else 2) ≤ n
    · have hrest := ih (n - if c.toNat < 0x10000 then 1 else 2)
      rw [if_pos hfits, List.map_cons, List.sum_cons]
      omega
    · rw [if_neg hfits]
      by_cases hn : n = 0
      · simp [hn]
      · rw [if_neg hn]
        have hone : ([Char.ofNat 0xfffd].map fun c => if c.toNat < 0x10000 then 1 else 2).sum = 1 := by
          decide
        omega

theorem utf16Length_slice (n : ℕ) (s : String) : utf16Length (utf16Slice n s) ≤ n := by
  unfold utf16Length utf16Slice
  rw [String.toList_ofList]
  exact utf16Take_sum s.toList n

/-- The runtime's JSON, over text in UTF-8, and `String` of a value that is not a string. -/
structure JsonRuntime where
  stringify : Json → Bytes
  parse : Bytes → Except Fault Json
  display : Json → Except Fault String
  /-- the empty text is no JSON -/
  parse_nil : parse [] = .error .syntaxError

/-- `JSON.parse` undoes `JSON.stringify` on a value. -/
def JsonRuntime.Undoes (rt : JsonRuntime) (v : Json) : Prop := rt.parse (rt.stringify v) = .ok v

theorem JsonRuntime.Undoes.ne_nil {rt : JsonRuntime} {v : Json} (h : rt.Undoes v) :
    rt.stringify v ≠ [] := by
  intro hnil
  unfold Undoes at h
  rw [hnil, rt.parse_nil] at h
  cases h

/-- `String(v)`. -/
def JsonRuntime.toText (rt : JsonRuntime) : Json → Except Fault String
  | .str s => .ok s
  | v => rt.display v

/-- `try { ... } catch { return null; }`. -/
def orNull {α : Type} : Except Fault (Option α) → Except Fault (Option α)
  | .ok r => .ok r
  | .error _ => .ok none

theorem orNull_total {α : Type} (r : Except Fault (Option α)) : ∃ a, orNull r = .ok a := by
  cases r with
  | ok a => exact ⟨a, rfl⟩
  | error e => exact ⟨none, rfl⟩

/-! ### Buffers -/

/-- `buf[i]`, where the byte is there. -/
def byteAt (buf : Bytes) (i : ℕ) : Except Fault UInt8 :=
  match buf[i]? with
  | some b => .ok b
  | none => .error .rangeError

@[simp] theorem byteAt_zero (b : UInt8) (buf : Bytes) : byteAt (b :: buf) 0 = .ok b := rfl

@[simp] theorem byteAt_succ (b : UInt8) (buf : Bytes) (i : ℕ) :
    byteAt (b :: buf) (i + 1) = byteAt buf i := rfl

/-- A byte that is there is read. -/
theorem byteAt_of_lt {buf : Bytes} {i : ℕ} (h : i < buf.length) :
    byteAt buf i = .ok (buf.getD i 0) := by
  unfold byteAt
  rw [List.getD_eq_getElem?_getD, List.getElem?_eq_getElem h]
  rfl

/-- `buf.readUInt16BE(offset)`. -/
def readUInt16BE (buf : Bytes) (offset : ℕ) : Except Fault ℕ :=
  if offset + 2 ≤ buf.length then .ok (readBE ((buf.drop offset).take 2)) else .error .rangeError

/-- `buf.readUInt32BE(offset)`. -/
def readUInt32BE (buf : Bytes) (offset : ℕ) : Except Fault ℕ :=
  if offset + 4 ≤ buf.length then .ok (readBE ((buf.drop offset).take 4)) else .error .rangeError

/-- The four bytes that `writeUInt32BE(v, offset)` writes. -/
def writeUInt32BE (v : ℕ) : Except Fault Bytes :=
  if v < 2 ^ 32 then .ok (writeBE 4 v) else .error .rangeError

theorem writeUInt32BE_of_lt {v : ℕ} (h : v < 2 ^ 32) : writeUInt32BE v = .ok (writeBE 4 v) :=
  if_pos h

/-- **Reading the four bytes that were written.** -/
theorem readUInt32BE_write (b : UInt8) {v : ℕ} (h : v < 2 ^ 32) (rest : Bytes) :
    readUInt32BE (b :: (writeBE 4 v ++ rest)) 1 = .ok v := by
  have hlen : (writeBE 4 v).length = 4 := length_writeBE 4 v
  have htake : (writeBE 4 v ++ rest).take 4 = writeBE 4 v := by
    rw [← hlen, List.take_left']
    rfl
  unfold readUInt32BE
  rw [if_pos (by simp [hlen])]
  show Except.ok (readBE ((writeBE 4 v ++ rest).take 4)) = .ok v
  rw [htake, readBE_writeBE (by simpa using h)]

end ScreenSharing.Lib
