import Mathlib.Data.List.Basic

-- A framing tells how a stream of `α`s is cut into frames: `split` takes the first frame off a
-- stream, and fails while that frame is incomplete. What has been cut off once is cut off the same
-- way however much of the stream follows.
structure Framing (α β : Type*) where
  split  : List α → Option (β × List α)
  suffix : split xs = some (b, ys) → ys <:+ xs
  shrink : split xs = some (b, ys) → ys.length < xs.length
  stable : split xs = some (b, ys) → split (xs ++ zs) = some (b, ys ++ zs)

namespace Framing

variable {α β : Type*} (F : Framing α β) {xs ys zs : List α} {b : β}

-- All complete frames at the front of a stream and the unparsed tail.
def parse (xs : List α) : List β × List α :=
  match _h : F.split xs with
  | none         => ([], xs)
  | some (b, ys) => (b :: (parse ys).1, (parse ys).2)
termination_by xs.length
decreasing_by all_goals exact F.shrink _h

variable {F}

theorem parse_of_none (h : F.split xs = none) : F.parse xs = ([], xs) := by
  rw [parse]
  split <;> simp_all

theorem parse_of_some (h : F.split xs = some (b, ys)) :
    F.parse xs = (b :: (F.parse ys).1, (F.parse ys).2) := by
  rw [parse]
  split <;> simp_all

variable (F) in
theorem parse_tail_suffix (xs : List α) : (F.parse xs).2 <:+ xs := by
  induction xs using Framing.parse.induct F
  case case1 xs h           => simp [parse_of_none h]
  case case2 xs b ys h hi   => simpa [parse_of_some h] using hi.trans (F.suffix h)

variable (F) in
-- The tail does not start with a complete frame.
theorem split_parse_tail (xs : List α) : F.split (F.parse xs).2 = none := by
  induction xs using Framing.parse.induct F
  case case1 xs h         => simpa [parse_of_none h] using h
  case case2 xs b ys h hi => simpa [parse_of_some h] using hi

variable (F) in
-- Parsing a stream in two pieces: the second piece is parsed behind the tail of the first one.
theorem parse_append (xs zs : List α) :
    F.parse (xs ++ zs) =
      ((F.parse xs).1 ++ (F.parse ((F.parse xs).2 ++ zs)).1, (F.parse ((F.parse xs).2 ++ zs)).2) := by
  induction xs using Framing.parse.induct F
  case case1 xs h         => simp [parse_of_none h]
  case case2 xs b ys h hi => simp [parse_of_some (F.stable h), parse_of_some h, hi]

-- `write` makes frames of the values that satisfy `P`, and makes them as they stand in every stream.
structure Writes (F : Framing α β) (write : β → List α) (P : β → Prop) : Prop where
  split : ∀ b xs, P b → F.split (write b ++ xs) = some (b, xs)
  write : ∀ b xs ys, F.split xs = some (b, ys) → P b → write b ++ ys = xs

variable {write : β → List α} {P : β → Prop} {bs : List β}

-- By induction on the frames.
theorem Writes.parse_flatMap (h : F.Writes write P) (hbs : ∀ b ∈ bs, P b) (hxs : F.split xs = none) :
    F.parse (bs.flatMap write ++ xs) = (bs, xs) := by
  induction bs
  case nil          => exact parse_of_none hxs
  case cons b bs hi =>
    have hs := h.split b (bs.flatMap write ++ xs) (hbs b List.mem_cons_self)
    rw [List.flatMap_cons, List.append_assoc, parse_of_some hs,
      hi fun b hb => hbs b (List.mem_cons_of_mem _ hb)]

theorem Writes.flatMap_parse (h : F.Writes write P) (hbs : ∀ b ∈ (F.parse xs).1, P b) :
    (F.parse xs).1.flatMap write ++ (F.parse xs).2 = xs := by
  induction xs using Framing.parse.induct F
  case case1 xs hs         => simp [parse_of_none hs]
  case case2 xs b ys hs hi =>
    rw [parse_of_some hs] at hbs ⊢
    have hb := hbs b List.mem_cons_self
    have hys := hi fun b hb => hbs b (List.mem_cons_of_mem _ hb)
    rw [List.flatMap_cons, List.append_assoc, hys, h.write b xs ys hs hb]

-- The frames of a part of a stream are frames of the stream.
theorem prefix_parse_append (xs ys : List α) : (F.parse xs).1 <+: (F.parse (xs ++ ys)).1 := by
  rw [F.parse_append xs ys]
  exact List.prefix_append ..

end Framing
