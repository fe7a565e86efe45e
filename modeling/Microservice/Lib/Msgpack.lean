import Mathlib.Algebra.Order.Ring.Nat
import Microservice.Lib.Codec

-- The formats of msgpack for strings, byte slices, integers, booleans and maps. The numbers are in big endian
-- order.
namespace Msgpack

variable {k n : Nat} {bs rest : List UInt8}

-- The last `k` bytes of a number.
def be : Nat → Nat → List UInt8
  | 0, _     => []
  | k + 1, n => be k (n / 2 ^ 8) ++ [.ofNat n]

def ofBe (bs : List UInt8) : Nat :=
  bs.foldl (fun n b => n * 2 ^ 8 + b.toNat) 0

def readBe (k : Nat) (bs : List UInt8) : Option (Nat × List UInt8) :=
  if k ≤ bs.length then some (ofBe (bs.take k), bs.drop k) else none

theorem length_be : (be k n).length = k := by
  induction k generalizing n
  case zero      => rfl
  case succ k hi => simp [be, hi]

theorem ofBe_be (h : n < 2 ^ (8 * k)) : ofBe (be k n) = n := by
  induction k generalizing n
  case zero =>
    simp only [Nat.mul_zero, Nat.pow_zero] at h
    simp only [be, ofBe, List.foldl_nil]
    omega
  case succ k hi =>
    have hlt : n / 2 ^ 8 < 2 ^ (8 * k) := Nat.div_lt_of_lt_mul (by rw [← Nat.pow_add]; convert h using 2; omega)
    have hd : ofBe (be k (n / 2 ^ 8)) = n / 2 ^ 8 := hi hlt
    simp only [ofBe] at hd
    simp only [be, ofBe, List.foldl_append, hd, List.foldl_cons, List.foldl_nil, UInt8.toNat_ofNat']
    omega

theorem readBe_be (k : Nat) (h : n < 2 ^ (8 * k)) : readBe k (be k n ++ rest) = some (n, rest) := by
  have htake : (be k n ++ rest).take k = be k n := List.take_left' length_be
  have hdrop : (be k n ++ rest).drop k = rest := List.drop_left' length_be
  rw [readBe, if_pos (by simp [length_be]), htake, hdrop, ofBe_be h]

theorem readBe_le (h : readBe k bs = some (n, rest)) : rest.length ≤ bs.length := by
  unfold readBe at h
  split at h <;> cases h
  rw [List.length_drop]
  exact Nat.sub_le ..

theorem le_of_some_eq {m : Nat} (h : some (m, bs) = some (n, rest)) : rest.length ≤ bs.length := by
  rw [(Prod.mk.inj (Option.some.inj h)).2]

-- What stands before a string of `n` bytes.
def strHeader (n : Nat) : List UInt8 :=
  if n < 32 then
    [.ofNat (0xa0 + n)]
  else if n < 2 ^ 8 then
    0xd9 :: be 1 n
  else if n < 2 ^ 16 then
    0xda :: be 2 n
  else
    0xdb :: be 4 n

-- What stands before a byte slice of `n` bytes.
def binHeader (n : Nat) : List UInt8 :=
  if n < 2 ^ 8 then
    0xc4 :: be 1 n
  else if n < 2 ^ 16 then
    0xc5 :: be 2 n
  else
    0xc6 :: be 4 n

-- The length of a string or of a byte slice. A decoder takes one for the other, and nil for either of them.
def readBytesLen : List UInt8 → Option (Nat × List UInt8)
  | []        => none
  | c :: rest =>
    if c = 0xc0 then
      some (0, rest)
    else if 0xa0 ≤ c.toNat ∧ c.toNat < 0xc0 then
      some (c.toNat - 0xa0, rest)
    else if c = 0xd9 ∨ c = 0xc4 then
      readBe 1 rest
    else if c = 0xda ∨ c = 0xc5 then
      readBe 2 rest
    else if c = 0xdb ∨ c = 0xc6 then
      readBe 4 rest
    else
      none

theorem readBytesLen_strHeader (h : n < 2 ^ 32) : readBytesLen (strHeader n ++ rest) = some (n, rest) := by
  unfold strHeader
  split
  case isTrue hn =>
    have hc : (UInt8.ofNat (0xa0 + n)).toNat = 0xa0 + n := by
      rw [UInt8.toNat_ofNat']
      omega
    have hnil : UInt8.ofNat (0xa0 + n) ≠ 0xc0 := by
      intro he
      have hc' : (0xc0 : UInt8).toNat = 0xc0 := rfl
      rw [he, hc'] at hc
      omega
    have hlt : 0xa0 ≤ 0xa0 + n ∧ 0xa0 + n < 0xc0 := by omega
    simp only [List.cons_append, List.nil_append, readBytesLen, if_neg hnil, hc, if_pos hlt,
      Nat.add_sub_cancel_left]
  case isFalse =>
    split
    case isTrue h => exact readBe_be 1 h
    case isFalse =>
      split
      case isTrue h => exact readBe_be 2 h
      case isFalse  => exact readBe_be 4 h

theorem readBytesLen_binHeader (h : n < 2 ^ 32) : readBytesLen (binHeader n ++ rest) = some (n, rest) := by
  unfold binHeader
  split
  case isTrue h => exact readBe_be 1 h
  case isFalse =>
    split
    case isTrue h => exact readBe_be 2 h
    case isFalse  => exact readBe_be 4 h

-- What is left behind a header is shorter than what has been read.
theorem readBytesLen_lt (h : readBytesLen bs = some (n, rest)) : rest.length < bs.length := by
  cases bs
  case nil => cases h
  case cons c bs =>
    apply Nat.lt_succ_of_le
    simp only [readBytesLen] at h
    repeat' split at h
    all_goals first | exact readBe_le h | exact le_of_some_eq h | cases h

theorem length_strHeader :
    (strHeader n).length = if n < 32 then 1 else if n < 2 ^ 8 then 2 else if n < 2 ^ 16 then 3 else 5 := by
  unfold strHeader
  split <;> [rfl; split] <;> [rfl; split] <;> rfl

theorem length_binHeader :
    (binHeader n).length = if n < 2 ^ 8 then 2 else if n < 2 ^ 16 then 3 else 5 := by
  unfold binHeader
  split <;> [rfl; split] <;> rfl

-- The sizes of a string and of a byte slice of `n` bytes.
def strSize (n : Nat) : Nat :=
  (strHeader n).length + n

def binSize (n : Nat) : Nat :=
  (binHeader n).length + n

-- Something of a length that is told by what stands before it.
def counted (header : Nat → List UInt8) : Codec (List UInt8) where
  encode s  := header s.length ++ s
  decode bs :=
    match readBytesLen bs with
    | none           => (.error [], bs)
    | some (n, rest) =>
      if n ≤ rest.length then (.ok (rest.take n), rest.drop n) else (.error [], [])

def str : Codec (List UInt8) :=
  counted strHeader

def bin : Codec (List UInt8) :=
  counted binHeader

-- A negative number of `k` bytes as an unsigned one of eight.
def signExtend (k n : Nat) : Nat :=
  if n < 2 ^ (8 * k - 1) then n else n + (2 ^ 64 - 2 ^ (8 * k))

-- An integer in any of the formats, as an unsigned one of eight bytes. It may also be nil.
def readUint : List UInt8 → Option (Nat × List UInt8)
  | []        => none
  | c :: rest =>
    if c = 0xc0 then
      some (0, rest)
    else if c.toNat < 0x80 ∨ 0xe0 ≤ c.toNat then
      some (signExtend 1 c.toNat, rest)
    else if c = 0xcc then
      readBe 1 rest
    else if c = 0xcd then
      readBe 2 rest
    else if c = 0xce then
      readBe 4 rest
    else if c = 0xcf ∨ c = 0xd3 then
      readBe 8 rest
    else if c = 0xd0 then
      (readBe 1 rest).map (Prod.map (signExtend 1) id)
    else if c = 0xd1 then
      (readBe 2 rest).map (Prod.map (signExtend 2) id)
    else if c = 0xd2 then
      (readBe 4 rest).map (Prod.map (signExtend 4) id)
    else
      none

def uint32 : Codec UInt32 where
  encode v  := 0xce :: be 4 v.toNat
  decode bs :=
    match readUint bs with
    | none           => (.error [], bs)
    | some (v, rest) => (.ok (.ofNat v), rest)

-- An `int` is always written in eight bytes.
def encodeInt (n : Nat) : List UInt8 :=
  0xd3 :: be 8 n

def bool : Codec Bool where
  encode b := [if b then 0xc3 else 0xc2]
  decode
    | []        => (.error [], [])
    | c :: rest =>
      if c = 0xc3 then (.ok true, rest) else if c = 0xc2 then (.ok false, rest) else (.error [], rest)

section

variable {header : Nat → List UInt8} {N : Nat}

theorem counted_inverts (hN : N < 2 ^ 32)
    (h : ∀ n rest, n < 2 ^ 32 → readBytesLen (header n ++ rest) = some (n, rest)) :
    (counted header).Inverts N := by
  intro s rest hs
  have hlt : s.length < 2 ^ 32 := by
    simp only [counted, List.length_append] at hs
    omega
  simp [counted, h _ _ hlt]

theorem counted_consumes : (counted header).Consumes := by
  intro bs
  simp only [counted]
  split
  case h_1 => exact Nat.le_refl _
  case h_2 n rest hr =>
    have hlt := readBytesLen_lt hr
    split
    case isTrue =>
      simp only [List.length_drop]
      omega
    case isFalse => exact Nat.zero_le _

theorem counted_shrinks {b : List UInt8} (hd : (counted header).decode bs = (.ok b, rest)) :
    b.length < bs.length := by
  simp only [counted] at hd
  split at hd
  case h_1 => cases hd
  case h_2 n rest' hr =>
    split at hd <;> cases hd
    have hlt := readBytesLen_lt hr
    simp only [List.length_take]
    omega

end

theorem str_inverts {N : Nat} (hN : N < 2 ^ 32) : str.Inverts N :=
  counted_inverts hN fun _ _ => readBytesLen_strHeader

theorem bin_inverts {N : Nat} (hN : N < 2 ^ 32) : bin.Inverts N :=
  counted_inverts hN fun _ _ => readBytesLen_binHeader

theorem uint32_inverts (N : Nat) : uint32.Inverts N := by
  intro v rest _
  have hr : readUint (0xce :: be 4 v.toNat ++ rest) = some (v.toNat, rest) := readBe_be 4 v.toNat_lt
  simp only [uint32, hr, UInt32.ofNat_toNat]

-- A decoder for a `uint32` reads an `int` too.
theorem uint32_encodeInt (h : n < 2 ^ 64) : uint32.decode (encodeInt n ++ rest) = (.ok (.ofNat n), rest) := by
  have hr : readUint (encodeInt n ++ rest) = some (n, rest) := readBe_be 8 h
  simp only [uint32, hr]

theorem bool_inverts (N : Nat) : bool.Inverts N := by
  intro b rest _
  cases b <;> rfl

theorem str_consumes : str.Consumes :=
  counted_consumes

theorem readBe_map_le {f : Nat → Nat} (h : (readBe k bs).map (Prod.map f id) = some (n, rest)) :
    rest.length ≤ bs.length := by
  obtain ⟨⟨m, rest'⟩, hr, he⟩ := Option.map_eq_some_iff.mp h
  cases he
  exact readBe_le hr

theorem uint32_consumes : uint32.Consumes := by
  have hread : ∀ bs n rest, readUint bs = some (n, rest) → rest.length ≤ bs.length := by
    intro bs n rest h
    cases bs
    case nil => cases h
    case cons c bs =>
      apply Nat.le_succ_of_le
      simp only [readUint] at h
      repeat' split at h
      all_goals first | exact readBe_le h | exact readBe_map_le h | exact le_of_some_eq h | cases h
  intro bs
  simp only [uint32]
  split
  case h_1    => exact Nat.le_refl _
  case h_2 hr => exact hread _ _ _ hr

theorem bin_shrinks {b : List UInt8} (hd : bin.decode bs = (.ok b, rest)) : b.length < bs.length :=
  counted_shrinks hd

theorem length_str (s : List UInt8) :
    (str.encode s).length = (strHeader s.length).length + s.length :=
  List.length_append

theorem length_bin (s : List UInt8) :
    (bin.encode s).length = (binHeader s.length).length + s.length :=
  List.length_append

-- What stands before a map of `n` entries.
def mapHeader (n : Nat) : List UInt8 :=
  if n < 16 then
    [.ofNat (0x80 + n)]
  else if n < 2 ^ 16 then
    0xde :: be 2 n
  else
    0xdf :: be 4 n

def readMapHeader : List UInt8 → Option (Nat × List UInt8)
  | []        => none
  | c :: rest =>
    if 0x80 ≤ c.toNat ∧ c.toNat < 0x90 then
      some (c.toNat - 0x80, rest)
    else if c = 0xde then
      readBe 2 rest
    else if c = 0xdf then
      readBe 4 rest
    else
      none

theorem readMapHeader_mapHeader (h : n < 2 ^ 32) : readMapHeader (mapHeader n ++ rest) = some (n, rest) := by
  unfold mapHeader
  split
  case isTrue hn =>
    have hc : (UInt8.ofNat (0x80 + n)).toNat = 0x80 + n := by
      rw [UInt8.toNat_ofNat']
      omega
    have hlt : 0x80 ≤ 0x80 + n ∧ 0x80 + n < 0x90 := by omega
    simp only [List.cons_append, List.nil_append, readMapHeader, hc, if_pos hlt, Nat.add_sub_cancel_left]
  case isFalse =>
    split
    case isTrue h => exact readBe_be 2 h
    case isFalse  => exact readBe_be 4 h

-- The entries of a map, in the order in which they are written.
def map {κ β : Type} (k : Codec κ) (v : Codec β) : Codec (List (κ × β)) where
  encode es := mapHeader es.length ++ es.flatMap (k.pair v).encode
  decode bs :=
    match readMapHeader bs with
    | none           => (.error [], bs)
    | some (n, rest) => (k.pair v).decodeN n rest

theorem map_inverts {κ β : Type} {k : Codec κ} {v : Codec β} {N : Nat} (hN : N < 2 ^ 32) (hk : k.Inverts N)
    (hv : v.Inverts N) (hpos : ∀ e, 0 < ((k.pair v).encode e).length) : (map k v).Inverts N := by
  intro es rest hes
  simp only [map, List.length_append] at hes
  have hlt : es.length < 2 ^ 32 := by
    have := Codec.length_le_length_flatMap hpos es
    omega
  simp only [map, List.append_assoc, readMapHeader_mapHeader hlt,
    Codec.decodeN_flatMap (Codec.pair_inverts hk hv) es rest (by omega)]

end Msgpack
