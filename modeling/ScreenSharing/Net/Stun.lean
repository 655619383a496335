import ScreenSharing.Lib.Json

/-!
# Reading a STUN response

The client sends one Binding Request over UDP and reads our external address out of the response, which
anybody may send.  What is thrown is a `StunError`, or a fault of a buffer that is read or written
outside of its bytes.

The attribute loop recurses with the bytes that are left between the offset and the end; every turn
moves the offset on by the four bytes of an attribute header at least.
-/

namespace ScreenSharing.Net.Stun

open Lib

def magicCookie : ℕ := 0x2112a442
def bindingSuccess : ℕ := 0x0101
def attrMappedAddress : ℕ := 0x0001
def attrXorMappedAddress : ℕ := 0x0020

/-- What a call throws. -/
inductive Thrown
  | stunError (message : String)
  | fault (f : Fault)
  deriving DecidableEq

inductive Family
  | ipv4
  | ipv6
  deriving DecidableEq

structure MappedAddress where
  family : Family
  address : String
  port : ℕ
  deriving DecidableEq

/-- An operation of a buffer, which may fault. -/
def buffer {α : Type} (r : Except Fault α) : Except Thrown α := r.mapError .fault

/-- `n.toString(16)`. -/
def hex (n : ℕ) : String := String.ofList (Nat.toDigits 16 n)

/-- `mask.writeUInt32BE(v, 0)` into `size` zero bytes. -/
def allocUInt32BE (size v : ℕ) : Except Fault Bytes :=
  if 4 ≤ size then .ok (writeBE 4 v ++ List.replicate (size - 4) 0) else .error .rangeError

/-- `src.copy(target, start)`: as many bytes as the target has room for. -/
def copy (src target : Bytes) (start : ℕ) : Bytes :=
  target.take start ++ src.take (target.length - start) ++ target.drop (start + src.length)

/-- The 16-bit groups of an address. -/
def groups : Bytes → List ℕ
  | b :: b' :: bs => (b.toNat * 256 + b'.toNat) :: groups bs
  | _ => []

/-- The text of an address in four bytes. -/
def renderIpv4 (bytes : Bytes) : String :=
  String.intercalate "." (bytes.map fun b => toString b.toNat)

/-- The text of an address in sixteen bytes. -/
def renderIpv6 (bytes : Bytes) : String := String.intercalate ":" ((groups bytes).map hex)

/-- The bytes of an address, masked with the cookie and, for sixteen of them, the transaction id. -/
def unmask (bytes transactionId : Bytes) : Except Thrown Bytes := do
  let mask ← buffer (allocUInt32BE bytes.length magicCookie)
  let mask := if bytes.length = 16 then copy transactionId mask 4 else mask
  return bytes.zipWith (· ^^^ ·) mask

/-- The end of `parseAddress`: the families it recognises. -/
def recognise (family port : ℕ) (addrBytes : Bytes) : Except Thrown MappedAddress :=
  if family = 0x01 ∧ addrBytes.length = 4 then .ok ⟨.ipv4, renderIpv4 addrBytes, port⟩
  else if family = 0x02 ∧ addrBytes.length = 16 then .ok ⟨.ipv6, renderIpv6 addrBytes, port⟩
  else .error (.stunError ("unrecognised address family 0x" ++ hex family))

def parseAddress (value transactionId : Bytes) (xored : Bool) : Except Thrown MappedAddress := do
  let family ← buffer (byteAt value 1)
  let port ← buffer (readUInt16BE value 2)
  let addrBytes := value.drop 4
  if xored then
    recognise family.toNat (port ^^^ (magicCookie >>> 16 &&& 0xffff))
      (← unmask addrBytes transactionId)
  else recognise family.toNat port addrBytes

/-- What follows the attribute loop. -/
def finish : Option MappedAddress → Except Thrown MappedAddress
  | some mapped => .ok mapped
  | none => .error (.stunError "response carried no mapped address")

/-- The attribute loop, at `offset`, with what it has `mapped` so far. -/
def readAttributes (response transactionId : Bytes) (stop offset : ℕ)
    (mapped : Option MappedAddress) : Except Thrown MappedAddress :=
  if h : offset + 4 ≤ stop then do
    let attrType ← buffer (readUInt16BE response offset)
    let attrLen ← buffer (readUInt16BE response (offset + 2))
    let valueStart := offset + 4
    let valueEnd := valueStart + attrLen
    if valueEnd > response.length then finish mapped
    else
      let value := (response.take valueEnd).drop valueStart
      if attrType = attrXorMappedAddress then parseAddress value transactionId true
      else
        let next := valueEnd + (4 - attrLen % 4) % 4
        if attrType = attrMappedAddress ∧ mapped = none then
          let parsed ← parseAddress value transactionId false
          readAttributes response transactionId stop next (some parsed)
        else readAttributes response transactionId stop next mapped
  else finish mapped
termination_by stop - offset

def decodeMappedAddress (response transactionId : Bytes) : Except Thrown MappedAddress := do
  if response.length < 20 then throw (.stunError "response shorter than header")
  let type ← buffer (readUInt16BE response 0)
  if type ≠ bindingSuccess then
    throw (.stunError ("unexpected STUN message type 0x" ++ hex type))
  if (← buffer (readUInt32BE response 4)) ≠ magicCookie then throw (.stunError "bad magic cookie")
  if (response.take 20).drop 8 ≠ transactionId then
    throw (.stunError "transaction id mismatch")
  let declaredLen ← buffer (readUInt16BE response 2)
  let stop := min (20 + declaredLen) response.length
  readAttributes response transactionId stop 20 none

end ScreenSharing.Net.Stun
