import PartlyProxy.Lib.Json
import Mathlib.Data.List.Perm.Basic

namespace Json
variable {α β : Type*}

/-- Two trees that differ in the order of the members of their objects only. Where an
object gives a name twice its members stay as they are. -/
inductive Reordered : Json → Json → Prop
  | refl (json : Json) : Reordered json json
  | trans {x y z : Json} : Reordered x y → Reordered y z → Reordered x z
  | item (front back : List Json) {x y : Json} : Reordered x y →
      Reordered (.arr (front ++ x :: back)) (.arr (front ++ y :: back))
  | member (front back : List (String × Json)) (name : String) {x y : Json} : Reordered x y →
      Reordered (.obj (front ++ (name, x) :: back)) (.obj (front ++ (name, y) :: back))
  | members {members members' : List (String × Json)} : (members.map Prod.fst).Nodup → members.Perm members' →
      Reordered (.obj members) (.obj members')

/-- A decoder that does not see the order of members. -/
def Blind (decode : Json → Option α) : Prop := ∀ x y : Json, Reordered x y → decode x = decode y

/-- It is enough that a decoder does not see a single change. -/
theorem blind_of_steps {decode : Json → Option α}
    (item : ∀ front back x y, Reordered x y → decode (.arr (front ++ x :: back)) = decode (.arr (front ++ y :: back)))
    (member : ∀ front back name x y, Reordered x y →
      decode (.obj (front ++ (name, x) :: back)) = decode (.obj (front ++ (name, y) :: back)))
    (members : ∀ members members' : List (String × Json), (members.map Prod.fst).Nodup → members.Perm members' →
      decode (.obj members) = decode (.obj members')) : Blind decode := by
  intro x y same
  induction same with
  | refl json => rfl
  | trans _ _ first second => exact first.trans second
  | item front back same _ => exact item front back _ _ same
  | member front back name same _ => exact member front back name _ _ same
  | members distinct perm => exact members _ _ distinct perm

/-- A decoder of leaves is blind. -/
theorem blind_leaf {decode : Json → Option α} (arr : ∀ items, decode (.arr items) = none)
    (obj : ∀ members, decode (.obj members) = none) : Blind decode :=
  blind_of_steps (fun _ _ _ _ _ => by rw [arr, arr]) (fun _ _ _ _ _ _ => by rw [obj, obj])
    fun _ _ _ _ => by rw [obj, obj]

theorem Blind.bind {decode : Json → Option α} (blind : Blind decode) (f : α → Option β) :
    Blind fun json => (decode json).bind f := by
  intro x y same
  show (decode x).bind f = (decode y).bind f
  rw [blind x y same]

theorem mapM_blind {decode : Json → Option α} (blind : Blind decode) (front back : List Json) {x y : Json}
    (same : Reordered x y) : (front ++ x :: back).mapM decode = (front ++ y :: back).mapM decode := by
  rw [List.mapM_append, List.mapM_append, List.mapM_cons, List.mapM_cons, blind x y same]

theorem Reordered.filter {members members' : List (String × Json)} (distinct : (members.map Prod.fst).Nodup)
    (perm : members.Perm members') (keep : String × Json → Bool) :
    Reordered (.obj (members.filter keep)) (.obj (members'.filter keep)) :=
  .members (distinct.sublist ((List.filter_sublist (p := keep)).map Prod.fst)) (perm.filter keep)

end Json
