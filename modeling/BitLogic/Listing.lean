import BitLogic.Expr.Parser

/-!
# Listings

Two ways to show what was read from a source: its tokens, one to a line with what
they spell, and its expression, one node to a line with two spaces per level.

## Main definitions

* `Listing.tokens`: The tokens of a source.
* `Listing.node`: One node.
* `Listing.tree`: An expression.
-/

namespace BitLogic

namespace Listing

/-- A token with what it spells. -/
def tokenLine (src : Text) (t : Token) : Text :=
  [96] ++ (t.lexeme? src).getD [] ++ Text.ofString "` :: " ++ t.kind.text ++ Text.ofString "\n"

/-- The tokens of a source, one to a line. -/
def tokens (src : Text) : Text := (lex src).flatMap (tokenLine src)

/-- What a node is and how it is called. -/
def label : Expr → Text
  | .var id _ => Text.ofString "VAR (" ++ Quoted.text id.name ++ Text.ofString ")"
  | .call id _ _ => Text.ofString "APP (" ++ Quoted.text id.name ++ Text.ofString ")"
  | .blank _ => Text.ofString "?"

/-- One node, indented by two spaces per level. -/
def node (v : Visit) : Text :=
  List.replicate (2 * v.depth) Text.space ++ label v.node ++ Text.ofString " @ " ++
    v.node.span.text ++ Text.ofString "\n"

/-- An expression, one node to a line. -/
def tree (e : Expr) : Text := e.visits.flatMap node

end Listing

end BitLogic
