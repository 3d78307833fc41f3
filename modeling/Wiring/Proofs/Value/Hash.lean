import Wiring.Proofs.Value.Equality
import Wiring.Value.Hash

/-!
# Values — equal values are hashed alike

Sets and tables look a value up among those that were hashed alike, so equality must not be coarser
than hashing.  **Equal values give a hasher the same pieces** (`pieces_congr`): where equality does
not see an order, only the size is hashed.  So a lookup that compares hashes first finds what is
found without them, whatever the hasher (`any_hashed`).
-/

namespace Wiring.Value

theorem piece_of_same {o o' : Object} (h : o.same o' = true) : o.piece = o'.piece := by
  cases o <;> cases o' <;> simp_all [Object.same, Object.piece]

theorem length_of_pairOff {xs ys : List Value} (h : pairOff xs ys = true) :
    xs.length = ys.length :=
  length_eq_of_pairOffBy (uniformAll xs) ((pairOff_eq xs ys).symm.trans h)

theorem length_of_pairOffEntries {es fs : List (Value × Value)}
    (h : pairOffEntries es fs = true) : es.length = fs.length :=
  length_eq_of_pairOffBy (uniformEntries es) ((pairOffEntries_eq es fs).symm.trans h)

mutual

/-- **Equal values are hashed alike.** -/
theorem pieces_congr : ∀ v w : Value, beq v w = true → v.pieces = w.pieces
  | null, _, h | bool _, _, h | int _, _, h | decimal _, _, h | char _, _, h | string _, _, h
  | stringArray _, _, h => by rw [eq_of_beq_atom rfl h]
  | array t xs, w, h => by
      cases w with
      | array t' ys =>
          obtain ⟨ht, hxs⟩ := Bool.and_eq_true_iff.1 h
          rw [pieces, pieces, eq_of_beq ht, (inOrder_iff.1 hxs).length_eq, piecesAll_congr xs ys hxs]
      | _ => cases h
  | list xs, w, h => by
      cases w with
      | list ys => rw [pieces, pieces, (inOrder_iff.1 h).length_eq, piecesAll_congr xs ys h]
      | _ => cases h
  | set xs, w, h => by
      cases w with
      | set ys => rw [pieces, pieces, length_of_pairOff h]
      | _ => cases h
  | map es, w, h => by
      cases w with
      | map fs => rw [pieces, pieces, length_of_pairOffEntries h]
      | _ => cases h
  | properties es, w, h => by
      cases w with
      | properties fs => rw [pieces, pieces, length_of_pairOffEntries h]
      | _ => cases h
  | object a, w, h => by
      cases w with
      | object b => rw [pieces, pieces, piece_of_same h]
      | _ => cases h

theorem piecesAll_congr : ∀ xs ys : List Value, inOrder xs ys = true → piecesAll xs = piecesAll ys
  | [], [], _ => rfl
  | x :: xs, y :: ys, h => by
      obtain ⟨hxy, hrest⟩ := Bool.and_eq_true_iff.1 h
      rw [piecesAll, piecesAll, pieces_congr x y hxy, piecesAll_congr xs ys hrest]

end

theorem head?_pieces (v : Value) : v.pieces.head? = some (.kind v.kind) := by
  cases v <;> rfl

/-- Equal values are of one kind. -/
theorem kind_eq_of_beq {v w : Value} (h : (v == w) = true) : v.kind = w.kind := by
  have heads : some (Piece.kind v.kind) = some (.kind w.kind) := by
    rw [← head?_pieces, ← head?_pieces, pieces_congr v w h]
  exact Piece.kind.inj (Option.some.inj heads)

/-- **Comparing hashes first changes no answer.** -/
theorem any_hashed (hash : List Piece → UInt64) (xs : List Value) (v : Value) :
    (xs.any fun x => hash v.pieces == hash x.pieces && v == x) = xs.contains v := by
  rw [List.contains_eq_any_beq]
  refine congrArg xs.any (funext fun x => ?_)
  cases h : v == x with
  | true => rw [pieces_congr v x h, beq_self_eq_true, Bool.true_and]
  | false => exact Bool.and_false _

end Wiring.Value
