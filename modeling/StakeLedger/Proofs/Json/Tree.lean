import StakeLedger.Json.Codec
import StakeLedger.Proofs.Bytes.Utf8
import StakeLedger.Proofs.Json.Building
import StakeLedger.Proofs.Json.Lexing

namespace StakeLedger.Json

mutual

theorem whole_toTree : ∀ j : Json, j.toTree.Whole
  | .null => .null
  | .bool _ => .bool
  | .number _ => .number
  | .text _ => .text
  | .list items => .list (whole_itemTrees items)
  | .record members => .record (whole_memberTrees members)

theorem whole_itemTrees : ∀ xs : List Json, ∀ t ∈ itemTrees xs, t.Whole
  | [] => nofun
  | x :: xs => List.forall_mem_cons.mpr ⟨whole_toTree x, whole_itemTrees xs⟩

theorem whole_memberTrees : ∀ ms : List (String × Json), ∀ m ∈ memberTrees ms, m.2.Whole
  | [] => nofun
  | (_, x) :: ms => List.forall_mem_cons.mpr ⟨whole_toTree x, whole_memberTrees ms⟩

end

mutual

theorem tokens_toTree : ∀ j : Json, j.toTree.tokens = j.toTokens
  | .null => rfl
  | .bool _ => rfl
  | .number _ => rfl
  | .text _ => rfl
  | .list [] => rfl
  | .list (x :: xs) => by
    rw [toTree, itemTrees, Tree.tokens, Tree.itemTokens, List.cons_append, List.cons_append, List.tail_cons,
      tokens_toTree x, tokens_itemTrees xs]
    rfl
  | .record [] => rfl
  | .record ((k, x) :: ms) => by
    rw [toTree, memberTrees, Tree.tokens, Tree.memberTokens, List.cons_append, List.cons_append, List.tail_cons,
      tokens_toTree x, tokens_memberTrees ms]
    rfl

theorem tokens_itemTrees : ∀ xs : List Json, Tree.itemTokens (itemTrees xs) = itemTokens xs
  | [] => rfl
  | x :: xs => by rw [itemTrees, Tree.itemTokens, tokens_toTree x, tokens_itemTrees xs, itemTokens]

theorem tokens_memberTrees : ∀ ms : List (String × Json), Tree.memberTokens (memberTrees ms) = memberTokens ms
  | [] => rfl
  | (k, x) :: ms => by rw [memberTrees, Tree.memberTokens, tokens_toTree x, tokens_memberTrees ms, memberTokens]

end

theorem ofTokens_toTokens (j : Json) : Document.ofTokens j.toTokens = ⟨j.toTree, false⟩ := by
  rw [← tokens_toTree, ofTokens_tokens (whole_toTree j)]

theorem ofChars_write {style : Style} (hb : Lexer.IsBlank style) {j : Json} (h : j.isExact = true) :
    Document.ofChars ((write style 0 j).map some) = ⟨j.toTree, false⟩ := by
  rw [Document.ofChars, tokens_write hb h, ofTokens_toTokens]

theorem ofBytes_ofString (s : String) : Document.ofBytes (Bytes.ofString s) = Document.ofString s := by
  rw [Document.ofBytes, Utf8.decode_ofString, Document.ofString]

theorem ofString_compact {j : Json} (h : j.isExact = true) : Document.ofString j.compact = ⟨j.toTree, false⟩ := by
  rw [Document.ofString, compact, String.toList_ofList]
  exact ofChars_write Lexer.isBlank_compact h

theorem ofBytes_pretty {j : Json} (h : j.isExact = true) :
    Document.ofBytes (Bytes.ofString j.pretty) = ⟨j.toTree, false⟩ := by
  rw [ofBytes_ofString, Document.ofString, pretty, String.toList_ofList]
  exact ofChars_write Lexer.isBlank_pretty h

end StakeLedger.Json
