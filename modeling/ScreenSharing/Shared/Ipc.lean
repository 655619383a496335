import ScreenSharing.Lib.Json
import ScreenSharing.Shared.Protocol

/-!
# The contract between the main process and the renderer

What a session shows of itself, and the one request that enters the room.
-/

namespace ScreenSharing

open Lib

inductive SessionPhase
  | idle
  | connecting
  | waking
  | inRoom
  | hosting
  | left
  deriving DecidableEq

/-- Is the session in the room, as a peer or as its host? -/
def SessionPhase.present : SessionPhase → Bool
  | .inRoom | .hosting => true
  | _ => false

structure SessionSnapshot where
  phase : SessionPhase
  isHost : Bool
  selfPeerId : String
  nickname : String
  epoch : ℕ
  roster : List RosterEntry
  streams : List StreamInfo
  maxRecommendedSubscriptions : ℕ
  notice : Option String
  deriving DecidableEq

inductive IpcResult (α : Type)
  | ok (value : α)
  | error (error : String)
  deriving DecidableEq

structure EnterRoomRequest where
  nickname : String
  deriving DecidableEq

/-- The white space and line terminators that `trim` removes. -/
def isTrimmed (c : Char) : Bool :=
  [0x09, 0x0a, 0x0b, 0x0c, 0x0d, 0x20, 0xa0, 0x1680, 0x2028, 0x2029, 0x202f, 0x205f, 0x3000,
    0xfeff].contains c.toNat || (0x2000 ≤ c.toNat && c.toNat ≤ 0x200a)

/-- `trim` of a string. -/
def trim (s : String) : String :=
  String.ofList (((s.toList.dropWhile isTrimmed).reverse.dropWhile isTrimmed).reverse)

/-- `enterRoomRequestSchema`; `nickname` is that member of the request, if it is a string. -/
def enterRoomRequestSchema (nickname : Option String) : Option EnterRoomRequest :=
  match nickname.map trim with
  | some nickname =>
    if 1 ≤ utf16Length nickname ∧ utf16Length nickname ≤ 48 then some ⟨nickname⟩ else none
  | none => none

end ScreenSharing
