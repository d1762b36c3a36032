import CallAtlas.Code

/-!
# The names that a pattern binds

All identifiers in binding position of a pattern, in source order. A pattern may hold expressions,
in a constant block or in a type, and those may bind names in turn; these count as well. Items
inside are left out, and so are the arguments of macros.
-/

namespace CallAtlas

namespace Binders

mutual
/-- The names that a pattern binds. -/
def ofPattern : Pattern → List String
  | .binder attrs name inner => name.text :: (ofExprs attrs ++ ofPattern inner)
  | .group parts => ofPatterns parts
  | .embedded value => ofExpr value

/-- The names that several patterns bind. -/
def ofPatterns : List Pattern → List String
  | [] => []
  | p :: rest => ofPattern p ++ ofPatterns rest

/-- The names that an expression binds somewhere inside. -/
def ofExpr : Expr → List String
  | .path attrs _ _ args => ofExprs attrs ++ ofExprs args
  | .call _ attrs callee args => ofExprs attrs ++ ofExpr callee ++ ofExprs args
  | .methodCall _ attrs receiver _ args => ofExprs attrs ++ ofExpr receiver ++ ofExprs args
  | .block attrs body => ofExprs attrs ++ ofStmts body
  | .binding attrs pattern value => ofExprs attrs ++ ofPattern pattern ++ ofExpr value
  | .branch attrs condition body otherwise =>
    ofExprs attrs ++ ofExpr condition ++ ofStmts body ++ ofExpr otherwise
  | .whileLoop attrs condition body => ofExprs attrs ++ ofExpr condition ++ ofStmts body
  | .forLoop attrs pattern source body =>
    ofExprs attrs ++ ofPattern pattern ++ ofExpr source ++ ofStmts body
  | .closure attrs params output body =>
    ofExprs attrs ++ ofPatterns params ++ ofExprs output ++ ofExpr body
  | .choice attrs subject arms => ofExprs attrs ++ ofExpr subject ++ ofArms arms
  | .invocation attrs _ _ _ => ofExprs attrs
  | .node _ parts => ofExprs parts

/-- The names that several expressions bind. -/
def ofExprs : List Expr → List String
  | [] => []
  | e :: rest => ofExpr e ++ ofExprs rest

/-- The names that the arms of a `match` bind. -/
def ofArms : List Arm → List String
  | [] => []
  | .mk attrs pattern guard body :: rest =>
    ofExprs attrs ++ ofPattern pattern ++ ofExpr guard ++ ofExpr body ++ ofArms rest

/-- The names that some statements bind. -/
def ofStmts : List Stmt → List String
  | [] => []
  | .binding attrs pattern value otherwise :: rest =>
    ofExprs attrs ++ ofPattern pattern ++ ofExpr value ++ ofExpr otherwise ++ ofStmts rest
  | .item _ :: rest => ofStmts rest
  | .expr value :: rest => ofExpr value ++ ofStmts rest
end

end Binders

end CallAtlas
