import Mathlib.Algebra.Group.Nat.Defs
import Mathlib.Data.List.Basic

-- How the values of a type are written to and read from a stream of bytes. Reading ends with the bytes that
-- are left, also if it ends in an error, for which there is a text.
structure Codec (α : Type) where
  encode : α → List UInt8
  decode : List UInt8 → Except (List UInt8) α × List UInt8

namespace Codec

variable {α κ : Type} {N : Nat}

-- The encoding tells where it ends, and decoding gives the value back. This is asked only of values with an
-- encoding of at most `N` bytes.
def Inverts (c : Codec α) (N : Nat) : Prop :=
  ∀ a rest, (c.encode a).length ≤ N → c.decode (c.encode a ++ rest) = (.ok a, rest)

-- Reading does not put bytes back.
def Consumes (c : Codec α) : Prop :=
  ∀ bs, (c.decode bs).2.length ≤ bs.length

-- A field of a record.
structure Field (κ : Type) where
  label : κ
  type  : Type
  codec : Codec type

-- The values of the fields of a record, in order.
def Values : List (Field κ) → Type
  | []      => Unit
  | f :: fs => f.type × Values fs

def encodeAll : (fs : List (Field κ)) → Values fs → List UInt8
  | [], _           => []
  | f :: fs, (v, vs) => f.codec.encode v ++ encodeAll fs vs

-- The fields are read one after the other, up to the first one that cannot be read.
def decodeAll : (fs : List (Field κ)) → List UInt8 → Except (κ × List UInt8) (Values fs) × List UInt8
  | [], bs      => (.ok (), bs)
  | f :: fs, bs =>
    match f.codec.decode bs with
    | (.error err, rest) => (.error (f.label, err), rest)
    | (.ok v, rest)      =>
      match decodeAll fs rest with
      | (.error err, rest) => (.error err, rest)
      | (.ok vs, rest)     => (.ok (v, vs), rest)

theorem decodeAll_encodeAll {fs : List (Field κ)} (hfs : ∀ f ∈ fs, f.codec.Inverts N) (vs : Values fs)
    (hN : (encodeAll fs vs).length ≤ N) (rest : List UInt8) :
    decodeAll fs (encodeAll fs vs ++ rest) = (.ok vs, rest) := by
  induction fs
  case nil => rfl
  case cons f fs hi =>
    have ⟨v, vs⟩ := vs
    simp only [encodeAll, List.length_append] at hN
    have hv := hfs f List.mem_cons_self v (encodeAll fs vs ++ rest) (by omega)
    have hvs := hi (fun g hg => hfs g (List.mem_cons_of_mem _ hg)) vs (by omega)
    simp only [encodeAll, decodeAll, List.append_assoc, hv, hvs]

-- Two values one after the other.
def pair {β : Type} (c : Codec α) (d : Codec β) : Codec (α × β) where
  encode p  := c.encode p.1 ++ d.encode p.2
  decode bs :=
    match c.decode bs with
    | (.error err, rest) => (.error err, rest)
    | (.ok a, rest)      =>
      match d.decode rest with
      | (.error err, rest) => (.error err, rest)
      | (.ok b, rest)      => (.ok (a, b), rest)

-- `n` values one after the other.
def decodeN (c : Codec α) : Nat → List UInt8 → Except (List UInt8) (List α) × List UInt8
  | 0, bs     => (.ok [], bs)
  | n + 1, bs =>
    match c.decode bs with
    | (.error err, rest) => (.error err, rest)
    | (.ok a, rest)      =>
      match decodeN c n rest with
      | (.error err, rest) => (.error err, rest)
      | (.ok as, rest)     => (.ok (a :: as), rest)

theorem pair_inverts {β : Type} {c : Codec α} {d : Codec β} (hc : c.Inverts N) (hd : d.Inverts N) :
    (c.pair d).Inverts N := by
  intro p rest hN
  simp only [pair, List.length_append] at hN
  simp only [pair, List.append_assoc, hc p.1 _ (by omega), hd p.2 rest (by omega)]

theorem decodeN_flatMap {c : Codec α} (hc : c.Inverts N) (as : List α) (rest : List UInt8)
    (hN : (as.flatMap c.encode).length ≤ N) :
    c.decodeN as.length (as.flatMap c.encode ++ rest) = (.ok as, rest) := by
  induction as
  case nil => rfl
  case cons a as hi =>
    simp only [List.flatMap_cons, List.length_append] at hN
    simp only [List.flatMap_cons, List.length_cons, decodeN, List.append_assoc, hc a _ (by omega),
      hi (by omega)]

theorem length_le_length_flatMap {c : Codec α} (hc : ∀ a, 0 < (c.encode a).length) (as : List α) :
    as.length ≤ (as.flatMap c.encode).length := by
  induction as
  case nil => exact Nat.le_refl 0
  case cons a as hi =>
    have ha := hc a
    simp only [List.flatMap_cons, List.length_append, List.length_cons]
    omega

end Codec
