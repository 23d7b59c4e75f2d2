import BitLogic.Text.Cluster
import BitLogic.Text.Width.Tables

/-!
# Columns

How many columns of a terminal a text takes when it is printed as it stands. A
cluster is as wide as the first of its code points that has a width at all, since
what follows is drawn over it. Controls, tabs and line ends count for nothing.

## Main definitions

* `Width.ofCode`: The columns of one code point.
* `Width.ofCluster`: The columns of one cluster.
* `Width.ofText`: The columns of a text.
-/

namespace BitLogic

namespace Width

/-- The columns of one code point. -/
def ofCode (c : Nat) : Nat :=
  if c < 0x20 then 0
  else if (0x7F ≤ c ∧ c ≤ 0x9F) ∨ c = 0xAD then 0
  else if c < 0x300 then 1
  else if narrow.has c then 1
  else if unseen.has c || combining.has c then 0
  else if wide.has c then 2
  else 1

/-- The columns of a cluster: those of its first code point that has any. -/
def ofCluster (rs : List Utf8.CodePoint) : Nat :=
  ((rs.map fun r => ofCode r.code).find? (0 < ·)).getD 0

/-- The columns of a text. -/
def ofText (t : Text) : Nat := (Cluster.split t).foldr (fun rs n => ofCluster rs + n) 0

end Width

end BitLogic
