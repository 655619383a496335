import ScreenSharing.Net.MappedAddress

/-!
# Decoding what a server encodes

A Binding Success Response after RFC 5389: the header, and a list of attributes, each padded to 32 bits.
An address is an attribute of its own, plain or masked; what the server lists besides does not matter.
The encoding is written from the format, and the decoder is proved against it.
-/

namespace ScreenSharing.Net.Stun

open Lib

/-! ### The format -/

structure TransactionId where
  bytes : Bytes
  length : bytes.length = 12

/-- An attribute, with the bytes that pad it to a multiple of four. -/
structure Attribute where
  type : ℕ
  value : Bytes
  padding : Bytes
  type_lt : type < 2 ^ 16
  value_lt : value.length < 2 ^ 16
  padded : padding.length = (4 - value.length % 4) % 4

def Attribute.encode (a : Attribute) : Bytes :=
  writeBE 2 a.type ++ (writeBE 2 a.value.length ++ (a.value ++ a.padding))

/-- A response, short enough for its declared length. -/
structure BindingSuccess where
  transactionId : TransactionId
  attributes : List Attribute
  fits : (attributes.flatMap Attribute.encode).length < 2 ^ 16

def BindingSuccess.encode (r : BindingSuccess) : Bytes :=
  let body := r.attributes.flatMap Attribute.encode
  writeBE 2 bindingSuccess ++ (writeBE 2 body.length ++ (writeBE 4 magicCookie ++
    (r.transactionId.bytes ++ body)))

def Family.byte : Family → UInt8
  | .ipv4 => 0x01
  | .ipv6 => 0x02

def Family.size : Family → ℕ
  | .ipv4 => 4
  | .ipv6 => 16

/-- An address and port as they are. -/
structure SocketAddress where
  family : Family
  bytes : Bytes
  port : ℕ
  size : bytes.length = family.size
  port_lt : port < 2 ^ 16

/-- What a decoder is to return. -/
def SocketAddress.rendered (a : SocketAddress) : MappedAddress :=
  ⟨a.family, match a.family with
    | .ipv4 => renderIpv4 a.bytes
    | .ipv6 => renderIpv6 a.bytes, a.port⟩

/-- The value of an attribute for a port and an address. -/
def addressValue (family : Family) (port : ℕ) (bytes : Bytes) : Bytes :=
  0 :: family.byte :: (writeBE 2 port ++ bytes)

/-- The address bytes, masked with the cookie and the transaction id. -/
def SocketAddress.masked (a : SocketAddress) (t : TransactionId) : Bytes :=
  a.bytes.zipWith (· ^^^ ·) (writeBE 4 magicCookie ++ t.bytes)

theorem length_addressValue {family : Family} {port : ℕ} {bytes : Bytes}
    (h : bytes.length = family.size) :
    (addressValue family port bytes).length = 4 + family.size := by
  unfold addressValue
  rw [List.length_cons, List.length_cons, List.length_append, length_writeBE, h]
  omega

theorem SocketAddress.length_masked (a : SocketAddress) (t : TransactionId) :
    (a.masked t).length = a.family.size := by
  unfold masked
  rw [List.length_zipWith, List.length_append, length_writeBE, t.length, a.size]
  cases a.family <;> rfl

/-- An address takes whole words, so its attribute needs no padding. -/
def addressAttribute (type : ℕ) (type_lt : type < 2 ^ 16) (family : Family) (port : ℕ)
    (bytes : Bytes) (h : bytes.length = family.size) : Attribute where
  type := type
  value := addressValue family port bytes
  padding := []
  type_lt := type_lt
  value_lt := by rw [length_addressValue h]; cases family <;> decide
  padded := by rw [length_addressValue h]; cases family <;> rfl

/-- MAPPED-ADDRESS. -/
def SocketAddress.mappedAddress (a : SocketAddress) : Attribute :=
  addressAttribute attrMappedAddress (by decide) a.family a.port a.bytes a.size

/-- XOR-MAPPED-ADDRESS: the port is masked with the upper half of the cookie. -/
def SocketAddress.xorMappedAddress (a : SocketAddress) (t : TransactionId) : Attribute :=
  addressAttribute attrXorMappedAddress (by decide) a.family (a.port ^^^ 0x2112) (a.masked t)
    (a.length_masked t)

/-- An attribute that is neither of the two. -/
def Attribute.Further (a : Attribute) : Prop :=
  a.type ≠ attrMappedAddress ∧ a.type ≠ attrXorMappedAddress

/-! ### The attributes of an encoded response -/

theorem uint16At_write {pre rest : Bytes} {v offset : ℕ} (h : v < 2 ^ 16)
    (hoffset : offset = pre.length) : uint16At (pre ++ (writeBE 2 v ++ rest)) offset = v := by
  unfold uint16At
  rw [hoffset, List.drop_left, List.take_left' (length_writeBE 2 v),
    readBE_writeBE (by simpa using h)]

theorem Attribute.length_encode (a : Attribute) :
    a.encode.length = 4 + a.value.length + (4 - a.value.length % 4) % 4 := by
  unfold encode
  rw [List.length_append, List.length_append, List.length_append, length_writeBE, length_writeBE,
    a.padded]
  omega

section

variable (a : Attribute) (pre rest : Bytes)

/-- Inside a response, the type of an attribute is read back, ... -/
theorem Attribute.uint16At_type : uint16At (pre ++ a.encode ++ rest) pre.length = a.type := by
  have hhead : pre ++ a.encode ++ rest = pre ++ (writeBE 2 a.type ++
      (writeBE 2 a.value.length ++ (a.value ++ (a.padding ++ rest)))) := by simp [encode]
  rw [hhead]
  exact uint16At_write a.type_lt rfl

/-- ... so is its length, ... -/
theorem Attribute.uint16At_length :
    uint16At (pre ++ a.encode ++ rest) (pre.length + 2) = a.value.length := by
  have htail : pre ++ a.encode ++ rest = (pre ++ writeBE 2 a.type) ++
      (writeBE 2 a.value.length ++ (a.value ++ (a.padding ++ rest))) := by simp [encode]
  rw [htail]
  exact uint16At_write a.value_lt (by simp)

/-- ... and so is its value. -/
theorem Attribute.slice_value :
    ((pre ++ a.encode ++ rest).take (pre.length + 4 + a.value.length)).drop (pre.length + 4) =
      a.value := by
  have hsplit : pre ++ a.encode ++ rest = (pre ++ (writeBE 2 a.type ++ writeBE 2 a.value.length)) ++
      (a.value ++ (a.padding ++ rest)) := by simp [encode]
  have hfour : (pre ++ (writeBE 2 a.type ++ writeBE 2 a.value.length)).length =
      pre.length + 4 := by simp
  rw [List.drop_take, hsplit, List.drop_left' hfour, Nat.add_sub_cancel_left, List.take_left]

end

/-- **The loop stays aligned**: it walks over the attributes that were encoded. -/
theorem attributes_encoded (attrs : List Attribute) : ∀ pre : Bytes,
    attributes (pre ++ attrs.flatMap Attribute.encode)
        (pre ++ attrs.flatMap Attribute.encode).length pre.length =
      attrs.map fun a => (a.type, a.value) := by
  induction attrs with
  | nil =>
    intro pre
    rw [attributes, if_neg (by rw [List.flatMap_nil, List.append_nil]; omega)]
    rfl
  | cons a attrs ih =>
    intro pre
    have hrest := ih (pre ++ a.encode)
    have hwhole : pre ++ (a :: attrs).flatMap Attribute.encode =
        pre ++ a.encode ++ attrs.flatMap Attribute.encode := by
      rw [List.flatMap_cons, List.append_assoc]
    rw [hwhole]
    generalize attrs.flatMap Attribute.encode = rest at hrest
    have hlen : (pre ++ a.encode ++ rest).length =
        pre.length + (4 + a.value.length + (4 - a.value.length % 4) % 4) + rest.length := by
      rw [List.length_append, List.length_append, a.length_encode]
    have hnext : pre.length + 4 + a.value.length + (4 - a.value.length % 4) % 4 =
        (pre ++ a.encode).length := by
      rw [List.length_append, a.length_encode]
      omega
    rw [attributes, if_pos (by omega), a.uint16At_length pre rest]
    dsimp only
    rw [if_neg (by omega), a.uint16At_type pre rest, a.slice_value pre rest, hnext, hrest]
    rfl

/-- The twenty bytes in front of the attributes. -/
def BindingSuccess.header (r : BindingSuccess) : Bytes :=
  writeBE 2 bindingSuccess ++ (writeBE 2 (r.attributes.flatMap Attribute.encode).length ++
    (writeBE 4 magicCookie ++ r.transactionId.bytes))

theorem BindingSuccess.encode_eq (r : BindingSuccess) :
    r.encode = r.header ++ r.attributes.flatMap Attribute.encode := by
  simp [encode, header]

theorem BindingSuccess.length_header (r : BindingSuccess) : r.header.length = 20 := by
  simp [header, r.transactionId.length]

theorem BindingSuccess.declared_length (r : BindingSuccess) :
    uint16At r.encode 2 = (r.attributes.flatMap Attribute.encode).length := by
  unfold encode
  exact uint16At_write r.fits (length_writeBE 2 _).symm

theorem acceptable_encode (r : BindingSuccess) : Acceptable r.encode r.transactionId.bytes where
  length := by
    rw [r.encode_eq, List.length_append, r.length_header]
    omega
  type := by
    have htype : bindingSuccess < 2 ^ 16 := by decide
    show uint16At ([] ++ r.encode) 0 = bindingSuccess
    exact uint16At_write htype rfl
  cookie := by
    have hsplit : r.encode = (writeBE 2 bindingSuccess ++
        writeBE 2 (r.attributes.flatMap Attribute.encode).length) ++ (writeBE 4 magicCookie ++
          (r.transactionId.bytes ++ r.attributes.flatMap Attribute.encode)) := by
      simp [BindingSuccess.encode]
    rw [hsplit, List.drop_left' (by simp), List.take_left' (length_writeBE 4 _),
      readBE_writeBE (by decide)]
  transaction := by
    have hsplit : r.header = (writeBE 2 bindingSuccess ++
        (writeBE 2 (r.attributes.flatMap Attribute.encode).length ++ writeBE 4 magicCookie)) ++
          r.transactionId.bytes := by simp [BindingSuccess.header]
    rw [r.encode_eq, List.take_left' r.length_header, hsplit, List.drop_left' (by simp)]

theorem listed_encode (r : BindingSuccess) :
    listed r.encode = r.attributes.map fun a => (a.type, a.value) := by
  have hstop : min (20 + uint16At r.encode 2) r.encode.length = r.encode.length := by
    rw [r.declared_length, r.encode_eq, List.length_append, r.length_header, Nat.min_self]
  rw [listed, hstop, r.encode_eq, ← r.length_header]
  exact attributes_encoded r.attributes r.header

/-! ### One address -/

/-- Masking twice is not masking. -/
theorem zipWith_xor_cancel (bytes : Bytes) : ∀ mask : Bytes, bytes.length ≤ mask.length →
    (bytes.zipWith (· ^^^ ·) mask).zipWith (· ^^^ ·) (mask.take bytes.length) = bytes := by
  induction bytes with
  | nil => exact fun _ _ => rfl
  | cons b bytes ih =>
    intro mask hle
    cases mask with
    | nil => cases hle
    | cons m mask =>
      have hrest := ih mask (Nat.le_of_succ_le_succ hle)
      rw [List.length_cons, List.take_succ_cons, List.zipWith_cons_cons, List.zipWith_cons_cons,
        hrest, UInt8.xor_assoc, UInt8.xor_self, UInt8.xor_zero]

/-- The decoder's mask is the encoder's, cut to the size of the address. -/
theorem maskOf_size (t : TransactionId) (family : Family) :
    maskOf t.bytes family.size = (writeBE 4 magicCookie ++ t.bytes).take family.size := by
  have hcookie : (writeBE 4 magicCookie).length = 4 := length_writeBE 4 _
  cases family with
  | ipv4 =>
    show writeBE 4 magicCookie ++ [] = (writeBE 4 magicCookie ++ t.bytes).take 4
    rw [List.take_left' hcookie, List.append_nil]
  | ipv6 =>
    show copy t.bytes (writeBE 4 magicCookie ++ List.replicate 12 0) 4 =
      (writeBE 4 magicCookie ++ t.bytes).take 16
    have hwhole : (writeBE 4 magicCookie ++ t.bytes).length = 16 := by
      rw [List.length_append, hcookie, t.length]
    unfold copy
    rw [List.take_left' hcookie, List.length_append, hcookie, List.length_replicate, t.length,
      List.take_of_length_le (by rw [t.length]), List.drop_of_length_le (by simp),
      List.append_nil, List.take_of_length_le (by rw [hwhole])]

theorem recognise_rendered (a : SocketAddress) :
    recognise a.family.byte.toNat a.port a.bytes = .ok a.rendered := by
  have hsize := a.size
  unfold recognise SocketAddress.rendered
  cases hfamily : a.family with
  | ipv4 =>
    rw [hfamily] at hsize
    exact if_pos ⟨rfl, hsize⟩
  | ipv6 =>
    rw [hfamily] at hsize
    rw [if_neg (fun h => absurd h.1 (by decide))]
    exact if_pos ⟨rfl, hsize⟩

theorem drop_addressValue (family : Family) (port : ℕ) (bytes : Bytes) :
    (addressValue family port bytes).drop 4 = bytes := by
  show (writeBE 2 port ++ bytes).drop 2 = bytes
  exact List.drop_left' (length_writeBE 2 port)

theorem port_addressValue (family : Family) {port : ℕ} (bytes : Bytes) (h : port < 2 ^ 16) :
    uint16At (addressValue family port bytes) 2 = port := by
  show uint16At ([0, family.byte] ++ (writeBE 2 port ++ bytes)) 2 = port
  exact uint16At_write h rfl

theorem parse_mappedAddress (a : SocketAddress) (transactionId : Bytes) :
    parseAddress a.mappedAddress.value transactionId false = .ok a.rendered := by
  show parseAddress (addressValue a.family a.port a.bytes) transactionId false = _
  rw [parseAddress_plain (by rw [length_addressValue a.size]; omega), drop_addressValue,
    port_addressValue _ _ a.port_lt]
  exact recognise_rendered a

theorem parse_xorMappedAddress (a : SocketAddress) (t : TransactionId) :
    parseAddress (a.xorMappedAddress t).value t.bytes true = .ok a.rendered := by
  show parseAddress (addressValue a.family (a.port ^^^ 0x2112) (a.masked t)) t.bytes true = _
  have hmasked := a.length_masked t
  have hsize : 4 ≤ a.family.size := by cases a.family <;> decide
  have hport : a.port ^^^ 0x2112 < 2 ^ 16 := Nat.xor_lt_two_pow a.port_lt (by decide)
  have hcover : a.bytes.length ≤ (writeBE 4 magicCookie ++ t.bytes).length := by
    rw [a.size, List.length_append, length_writeBE, t.length]
    cases a.family <;> decide
  have hunmask : unmask (a.masked t) t.bytes = .ok a.bytes := by
    rw [unmask_of_le (by omega), hmasked, maskOf_size, ← a.size]
    exact congrArg _ (zipWith_xor_cancel a.bytes _ hcover)
  rw [parseAddress_masked (by rw [length_addressValue hmasked]; omega), drop_addressValue,
    port_addressValue _ _ hport, hunmask, Nat.xor_assoc,
    show 0x2112 ^^^ (magicCookie >>> 16 &&& 0xffff) = 0 from rfl, Nat.xor_zero]
  exact recognise_rendered a

/-! ### The whole response -/

/-- Attributes of other types are passed over. -/
theorem pick_further (transactionId : Bytes) (mapped : Option MappedAddress)
    {attrs : List Attribute} (rest : List Attribute) (h : ∀ a ∈ attrs, a.Further) :
    pick transactionId mapped ((attrs ++ rest).map fun a => (a.type, a.value)) =
      pick transactionId mapped (rest.map fun a => (a.type, a.value)) := by
  induction attrs with
  | nil => rfl
  | cons a attrs ih =>
    obtain ⟨hplain, hxor⟩ := h a List.mem_cons_self
    rw [List.cons_append, List.map_cons, pick, if_neg hxor, if_neg fun hc => hplain hc.1]
    exact ih fun a ha => h a (List.mem_cons_of_mem _ ha)

theorem pick_xorMapped (t : TransactionId) (mapped : Option MappedAddress) (a : SocketAddress)
    (rest : List Attribute) :
    pick t.bytes mapped ((a.xorMappedAddress t :: rest).map fun a => (a.type, a.value)) =
      .ok a.rendered := by
  rw [List.map_cons, pick]
  exact (if_pos rfl).trans (parse_xorMappedAddress a t)

theorem pick_mapped (t : TransactionId) (a : SocketAddress) (rest : List Attribute) :
    pick t.bytes none ((a.mappedAddress :: rest).map fun a => (a.type, a.value)) =
      pick t.bytes (some a.rendered) (rest.map fun a => (a.type, a.value)) := by
  have hxor : a.mappedAddress.type ≠ attrXorMappedAddress := by
    show attrMappedAddress ≠ attrXorMappedAddress
    decide
  rw [List.map_cons, pick, if_neg hxor, if_pos ⟨rfl, rfl⟩, parse_mappedAddress]
  rfl

theorem decode_encode_eq (r : BindingSuccess) :
    decodeMappedAddress r.encode r.transactionId.bytes =
      pick r.transactionId.bytes none (r.attributes.map fun a => (a.type, a.value)) := by
  rw [decode_of_acceptable (acceptable_encode r), listed_encode]

/-- **The decoder inverts the encoding.**  Among any further attributes, an XOR-MAPPED-ADDRESS is
decoded to the address it was made of, and so is a MAPPED-ADDRESS on its own; of both, in either order,
the XOR-MAPPED-ADDRESS counts. -/
theorem decode_inverts_encode (r : BindingSuccess) (before between after : List Attribute)
    (a a' : SocketAddress) (hbefore : ∀ x ∈ before, x.Further) (hbetween : ∀ x ∈ between, x.Further)
    (hafter : ∀ x ∈ after, x.Further) :
    (r.attributes = before ++ a.xorMappedAddress r.transactionId :: after →
      decodeMappedAddress r.encode r.transactionId.bytes = .ok a.rendered) ∧
    (r.attributes = before ++ a.mappedAddress :: after →
      decodeMappedAddress r.encode r.transactionId.bytes = .ok a.rendered) ∧
    (r.attributes = before ++ a'.mappedAddress ::
        (between ++ a.xorMappedAddress r.transactionId :: after) →
      decodeMappedAddress r.encode r.transactionId.bytes = .ok a.rendered) ∧
    (r.attributes = before ++ a.xorMappedAddress r.transactionId ::
        (between ++ a'.mappedAddress :: after) →
      decodeMappedAddress r.encode r.transactionId.bytes = .ok a.rendered) := by
  rw [decode_encode_eq]
  refine ⟨fun h => ?_, fun h => ?_, fun h => ?_, fun h => ?_⟩
  · rw [h, pick_further _ _ _ hbefore, pick_xorMapped]
  · have hrest := pick_further r.transactionId.bytes (some a.rendered) [] hafter
    rw [List.append_nil] at hrest
    rw [h, pick_further _ _ _ hbefore, pick_mapped, hrest]
    rfl
  · rw [h, pick_further _ _ _ hbefore, pick_mapped, pick_further _ _ _ hbetween, pick_xorMapped]
  · rw [h, pick_further _ _ _ hbefore, pick_xorMapped]

/-- 203.0.113.9:51234, masked, after another address and between attributes of other types. -/
theorem decode_inverts_encode_bothAddresses :
    let t : TransactionId := ⟨[1, 2, 3, 4, 5, 6, 7, 8, 9, 10, 11, 12], rfl⟩
    let a : SocketAddress := ⟨.ipv4, [203, 0, 113, 9], 51234, rfl, by decide⟩
    let b : SocketAddress := ⟨.ipv6, 0x20 :: 0x01 :: List.replicate 14 7, 3478, rfl, by decide⟩
    let software : Attribute := ⟨0x8022, [115, 116, 117], [0], by decide, by decide, rfl⟩
    let r : BindingSuccess := ⟨t, [software] ++ b.mappedAddress ::
      ([] ++ a.xorMappedAddress t :: [software]), by decide⟩
    decodeMappedAddress r.encode t.bytes = .ok ⟨.ipv4, "203.0.113.9", 51234⟩ := by
  intro t a b software r
  have hfurther : ∀ x ∈ [software], x.Further := by
    intro x hx
    rw [List.mem_singleton.mp hx]
    exact ⟨by decide, by decide⟩
  exact (decode_inverts_encode r [software] [] [software] a b hfurther
    (fun x hx => absurd hx List.not_mem_nil) hfurther).2.2.1 rfl

end ScreenSharing.Net.Stun
