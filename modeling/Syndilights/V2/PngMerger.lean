import Mathlib.Logic.Function.Basic
import Mathlib.Tactic

/-!
# The merger of images

`merge` of `png_merger.py`, with Redis as a map from keys to sets of byte strings. What PIL does
to compose two images is a parameter, and so is the time at which `merge` runs.
-/

namespace Syndilights.V2.PngMerger

/-! ## Redis -/

/-- A set of byte strings, in the order in which it is iterated over. -/
structure Strings where
  members : List (List UInt8)
  nodup : members.Nodup

/-- The set of a key that does not exist. -/
def Strings.empty : Strings where
  members := []
  nodup := List.nodup_nil

/-- A database with sets only. -/
abbrev Redis := String → Strings

namespace Redis

/-- `exists`. -/
def key_exists (r : Redis) (key : String) : Bool := !(r key).members.isEmpty

/-- `delete`. -/
def delete (r : Redis) (key : String) : Redis := Function.update r key .empty

/-- `rename`, which overwrites the new key. -/
def rename (r : Redis) (key name : String) : Redis := Function.update (r.delete key) name (r key)

/-- `smembers`. -/
def smembers (r : Redis) (key : String) : Strings := r key

end Redis

/-! ## Images -/

/-- An image of 100 × 100 pixels with four bytes each. -/
def Rgba := {bytes : List UInt8 // bytes.length = 100 * 100 * 4}

/-- `Image.frombytes('RGBA', (100, 100), …)`, which raises for strings of any other length. -/
def frombytes (bytes : List UInt8) : Option Rgba :=
  if h : bytes.length = 100 * 100 * 4 then some ⟨bytes, h⟩ else none

/-- What `merge` works on: the database and the files that were saved, in order. -/
structure World where
  redis : Redis
  saved : List (String × Rgba)

/-- `image.save(now + '.png', 'png')`. -/
def World.save (w : World) (now : String) (image : Rgba) : World :=
  { w with saved := w.saved ++ [(now ++ ".png", image)] }

/-! ## Merging -/

section
variable (alpha_composite : Rgba → Rgba → Rgba)

/-- The variables of the loop. `img_alpha` is unbound at first. -/
structure Loop where
  images : List Rgba
  img_alpha : Option Rgba

/-- The end of the loop's body, when the string was decoded. -/
def Loop.append (s : Loop) (image : Rgba) : Loop :=
  match s.images ++ [image] with
  | [first, second] =>
    { images := [alpha_composite first second], img_alpha := some (alpha_composite first second) }
  | images => { s with images := images }

/-- The loop's body, which skips what it cannot decode. -/
def Loop.body (s : Loop) (i : List UInt8) : Loop :=
  match frombytes i with
  | some image => s.append alpha_composite image
  | none => s

/-- The exceptions that leave `merge`. -/
inductive Raised
  /-- By `frombytes`. -/
  | ValueError
  /-- By a variable that was never assigned. -/
  | UnboundLocalError
deriving DecidableEq

/-- `merge`: whether it finishes, and what it leaves. -/
def merge (now : String) (w : World) : Except Raised Unit × World :=
  if w.redis.key_exists "new" = false then (.ok (), w)
  else
    let redis := w.redis.rename "new" now
    let new_imgs := redis.smembers now
    let w := { w with redis := redis.delete now }
    match new_imgs.members with
    | [string] =>
      match frombytes string with
      | some image => (.ok (), w.save now image)
      | none => (.error .ValueError, w)
    | strings =>
      match (strings.foldl (Loop.body alpha_composite) ⟨[], none⟩).img_alpha with
      | some img_alpha => (.ok (), w.save now img_alpha)
      | none => (.error .UnboundLocalError, w)

end

end Syndilights.V2.PngMerger
