import SignalAccess.Proofs.Text.Pieces
import SignalAccess.Proofs.Text.Search
import SignalAccess.Request.Address

/-!
# Addresses of trees

An address of a tree is read from its end, element by element and each element from its last character.
Here is said what it means from the front: by its elements in the order in which they are written, by
the value of the last one, and by what stands in front of it. Reading comes to exactly that, since a
text read backwards has the same elements, in the other order and each of them backwards.

Either way slashes in a row count as one, and those at the ends as none; only whether there is a slash
in front is kept.
-/

namespace SignalAccess

namespace Address

/-- The server that the elements in front of a tree make, behind a slash if the address starts with
one. -/
def serverOf (t : Text) (front : List Text) : Text :=
  let server := Text.joinBy ['/'] front
  if t.head? = some '/' ∧ server ≠ [] then '/' :: server else server

/-- What an address of a tree means for a request: whether it is refused, and the request that it
leaves. -/
inductive Means (t : Text) (request : Request) : Except Failure Unit → Request → Prop where
  /-- An address without elements is no server. -/
  | nothing (empty : t.elements = []) : Means t request (.ok ()) { request with server := [] }
  /-- An address that does not end with a number is a server as a whole. -/
  | server {front : List Text} {last : Text} (written : t.elements = front ++ [last])
    (unnumbered : last.integerValue? = none) : Means t request (.ok ()) { request with server := t }
  /-- A number at the end is that of the tree in front of it. -/
  | tree {front : List Text} {name last : Text} {pulse : Int32}
    (written : t.elements = front ++ [name, last])
    (number : last.integerValue? = some pulse.toInt) :
    Means t request (.ok ())
      { request with pulse := pulse, file := name, server := serverOf t front }
  /-- A number is refused if it stands alone or if no pulse has it. The request stays as it was. -/
  | ambiguous {front : List Text} {last : Text} {number : Int}
    (written : t.elements = front ++ [last]) (given : last.integerValue? = some number)
    (refused : front = [] ∨ ∀ pulse : Int32, pulse.toInt ≠ number) :
    Means t request (.error (ambiguous t)) request

variable {t last name : Text} {front : List Text} {request found : Request}
  {outcome : Except Failure Unit}

/-! ## One reading for each meaning -/

/-- Where nothing but slashes is written, the server is emptied. -/
theorem resolveTree_of_nothing (empty : t.elements = []) (request : Request) :
    resolveTree t request = (.ok (), { request with server := [] }) := by
  rw [resolveTree, Text.elements_reverse, empty]
  rfl

/-- The last element is read first. -/
theorem elements_reverse_of_concat (written : t.elements = front ++ [last]) :
    Text.elements t.reverse = last.reverse :: (front.map List.reverse).reverse := by
  rw [Text.elements_reverse, written]
  simp

/-- Where no number stands at the end, the whole address becomes the server. -/
theorem resolveTree_of_unnumbered (written : t.elements = front ++ [last])
    (unnumbered : last.integerValue? = none) (request : Request) :
    resolveTree t request = (.ok (), { request with server := t }) := by
  have other := Text.integerValue?_eq_none_iff.mp unnumbered
  simp only [resolveTree, elements_reverse_of_concat written, List.reverse_reverse, other]
  rfl

/-- A number behind the name of a tree is read with that name, and the elements in front of both make
the server. -/
theorem resolveTree_of_number {pulse : Int32} (written : t.elements = front ++ [name, last])
    (number : last.integerValue? = some pulse.toInt) (request : Request) :
    resolveTree t request =
      (.ok (), { request with pulse := pulse, file := name, server := serverOf t front }) := by
  have split : t.elements = (front ++ [name]) ++ [last] := by
    rw [written, List.append_assoc]
    rfl
  have read : Text.elements t.reverse =
      last.reverse :: name.reverse :: (front.map List.reverse).reverse := by
    rw [elements_reverse_of_concat split]
    simp
  have numbered : Text.isInteger last = true := Text.isInteger_of_integerValue? number
  have held := Text.int32?_eq_some_iff.mpr number
  have server : ((front.map List.reverse).reverse.map List.reverse).reverse = front := by simp
  simp only [resolveTree, read, List.reverse_reverse, numbered, held, server, serverOf]
  simp

/-- Where the number stands alone no tree is left in front of it, and where no pulse has it no number is
left. -/
theorem resolveTree_of_refused {number : Int} (written : t.elements = front ++ [last])
    (given : last.integerValue? = some number)
    (refused : front = [] ∨ ∀ pulse : Int32, pulse.toInt ≠ number) (request : Request) :
    resolveTree t request = (.error (ambiguous t), request) := by
  have numbered : Text.isInteger last = true := Text.isInteger_of_integerValue? given
  have read := elements_reverse_of_concat written
  rcases refused with rfl | outside
  · cases held : Text.int32? last with
    | none => simp [resolveTree, read, numbered, held]
    | some pulse => simp [resolveTree, read, numbered, held]
  · have unheld : Text.int32? last = none := by
      rw [Option.eq_none_iff_forall_ne_some]
      intro pulse held
      have same := Text.int32?_eq_some_iff.mp held
      rw [given, Option.some.injEq] at same
      exact outside pulse same.symm
    simp [resolveTree, read, numbered, unheld]

/-! ## Every address -/

/-- Reading an address comes to everything that the address means. -/
theorem resolveTree_eq_of_means (means : Means t request outcome found) :
    resolveTree t request = (outcome, found) := by
  cases means with
  | nothing empty => exact resolveTree_of_nothing empty request
  | server written unnumbered => exact resolveTree_of_unnumbered written unnumbered request
  | tree written number => exact resolveTree_of_number written number request
  | ambiguous written given refused => exact resolveTree_of_refused written given refused request

/-- Every address means something for every request. -/
theorem exists_means (t : Text) (request : Request) :
    ∃ outcome found, Means t request outcome found := by
  rcases List.eq_nil_or_concat t.elements with empty | ⟨front, last, written⟩
  · exact ⟨_, _, .nothing empty⟩
  · rw [List.concat_eq_append] at written
    cases given : last.integerValue? with
    | none => exact ⟨_, _, .server written given⟩
    | some number =>
      by_cases fits : ∃ pulse : Int32, pulse.toInt = number
      · obtain ⟨pulse, rfl⟩ := fits
        rcases List.eq_nil_or_concat front with rfl | ⟨others, name, rfl⟩
        · exact ⟨_, _, .ambiguous written given (.inl rfl)⟩
        · have tree : t.elements = others ++ [name, last] := by
            rw [written, List.concat_eq_append, List.append_assoc]
            rfl
          exact ⟨_, _, .tree tree given⟩
      · exact ⟨_, _, .ambiguous written given (.inr (not_exists.mp fits))⟩

/-- Reading an address of a tree comes to what the address means, and to nothing else. A refused
address leaves the request as it was. -/
theorem resolveTree_eq_iff_means (t : Text) (request : Request) (outcome : Except Failure Unit)
    (found : Request) :
    resolveTree t request = (outcome, found) ↔ Means t request outcome found := by
  constructor
  · intro resolved
    obtain ⟨meant, left, means⟩ := exists_means t request
    rw [resolveTree_eq_of_means means] at resolved
    cases resolved
    exact means
  · exact resolveTree_eq_of_means

/-- Slashes in a row are one, and a sign belongs to the number. -/
example : resolveTree "/disk//shots/tree/+7/".toList .blank =
    (.ok (), { Request.blank with
      pulse := 7, file := "tree".toList, server := "/disk/shots".toList }) := by
  decide +kernel

end Address

end SignalAccess
