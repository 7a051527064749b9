import BulkSync.Combiner

namespace BulkSync

/-- What a computation can exchange: how a count reads as a message, how messages add up, and
which of two has to stand first when they are sorted. -/
class Message (M : Type) where
  ofCount : Nat → M
  sum : Combiner M
  minimum : Combiner M
  maximum : Combiner M
  before : M → M → Bool
  /-- The combiners that only this kind of message has, by name. -/
  special : String → Option (Combiner M)

instance : Message Int64 where
  ofCount n := Int64.ofNat n
  sum := addLongs
  minimum := Combiner.min
  maximum := Combiner.max
  before a b := decide (a < b)
  special
    | "sub" => some fun a b => .ok (a - b)
    | "digits" => some fun a b => .ok (10 * a + b)
    | _ => none

instance : Message Float where
  ofCount n := Float.ofNat n
  sum := fun a b => .ok (a + b)
  minimum := Combiner.min
  maximum := Combiner.max
  before a b := decide (a < b)
  special
    | "sub" => some fun a b => .ok (a - b)
    | "avg" => some fun a b => .ok ((a + b) / 2.0)
    | _ => none

instance : Message String where
  ofCount n := toString n
  sum := fun a b => .ok (a ++ b)
  minimum := Combiner.min
  maximum := Combiner.max
  before a b := decide (a < b)
  special := fun _ => none

/-- Adds a message to a sorted list, both given last message first. It passes those that it has
to stand before, and no other. -/
def Message.settle {M : Type} [Message M] (message : M) : List M → List M
  | [] => [message]
  | last :: rest =>
    if Message.before message last then last :: Message.settle message rest
    else message :: last :: rest

/-- Sorts messages. Two of which neither has to stand before the other keep their order, as the
two zeros do. -/
def Message.sort {M : Type} [Message M] (messages : List M) : List M :=
  (messages.foldl (fun sorted message => Message.settle message sorted) []).reverse

/-- The combiner of a name. -/
def Message.combiner? (M : Type) [Message M] : String → Option (Combiner M)
  | "sum" => some Message.sum
  | "min" => some Message.minimum
  | "max" => some Message.maximum
  | "first" => some Combiner.first
  | "last" => some Combiner.last
  | "fail" => some Combiner.failing
  | name => Message.special name

end BulkSync
