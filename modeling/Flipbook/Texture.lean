import Flipbook.Text.Split

/-!
# Textures

A texture is named by a name space and a path, written `space:path`. Textures
are ordered by name space and then by path, character by character.
-/
namespace Flipbook

/-- The name of a texture. -/
structure Texture where
  space : String
  path : String
deriving DecidableEq, Repr, Inhabited

namespace Texture

/-- The name space of a texture written without one. -/
def defaultSpace : String := "minecraft"

/-- Reads a name: what stands before the first colon is the name space. -/
def parse (name : String) : Texture :=
  match Text.cut ':' name.toList with
  | some (space, path) => ⟨String.ofList space, String.ofList path⟩
  | none => ⟨defaultSpace, name⟩

/-- The name in full. -/
def name (t : Texture) : String := t.space ++ ":" ++ t.path

/-- The last component of the path. -/
def fileName (t : Texture) : String :=
  String.ofList ((Text.splitOn '/' t.path.toList).getLast (Text.splitOn_ne_nil _ _))

/-- Name spaces are compared first, then paths. -/
def order (a b : Texture) : Ordering := (compare a.space b.space).then (compare a.path b.path)

instance : Ord Texture := ⟨order⟩

theorem order_eq : order = compareLex (compareOn space) (compareOn path) := by
  funext a b
  simp [order, compareLex, compareOn]

instance : Std.TransOrd Texture := by
  show Std.TransCmp order
  rw [order_eq]
  infer_instance

instance : Std.LawfulEqOrd Texture where
  compare_self := by
    intro a
    show (compare a.space a.space).then (compare a.path a.path) = .eq
    simp
  eq_of_compare := by
    intro a b h
    obtain ⟨hs, hp⟩ := Ordering.then_eq_eq.1 (show (compare a.space b.space).then
      (compare a.path b.path) = .eq from h)
    cases a
    cases b
    simp_all

end Texture
end Flipbook
