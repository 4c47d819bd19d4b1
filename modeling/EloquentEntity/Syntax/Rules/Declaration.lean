import EloquentEntity.Syntax.Rules.Expression

/-!
Rules for declarations: imports, classes and their members, functions.
-/

namespace EloquentEntity.Syntax.Rules

open Rule

def attributesRule : PhpRule :=
  .node .attributes (many1 (between "#[" (.seq (commaList (.seq className (opt arguments)))
    (opt (sym ","))) "]"))

/-! ### Imports -/

/-- The word that makes an import one of functions or constants. -/
def importKind : PhpRule := oneKw ["function", "const"]

def aliasClause : PhpRule := .seq (kw "as") label

def useClause : PhpRule :=
  .node .useClause (all [opt importKind, nameOf (.kind .word), opt aliasClause])

/-- A member of a group has no backslash in front. -/
def groupClause : PhpRule :=
  .node .useClause (all [opt importKind, .notAhead (.symbol "\\"), nameOf (.kind .word), opt aliasClause])

def useGroup : PhpRule :=
  all [opt importKind, opt (sym "\\"), namespaceName, sym "\\",
    .node .useGroup (braces (commaList groupClause))]

def useDeclaration : PhpRule :=
  .node .useDeclaration (all [kw "use", .alt useGroup (commaList useClause), terminator])

/-! ### Members -/

def constantElement : PhpRule := all [word, sym "=", expression]

def constantDeclaration : PhpRule :=
  let elements := commaList constantElement
  .node .constantDeclaration (all [opt attributes, .many modifier, kw "const",
    .alt elements (.seq type elements), terminator])

def functionHeader : PhpRule :=
  all [kw "function", opt (sym "&"), label, parameters, opt returnType]

def methodDeclaration : PhpRule :=
  .node .methodDeclaration (all [opt attributes, .many modifier, functionHeader,
    .alt block terminator])

def propertyElement : PhpRule :=
  .node .propertyElement (.seq plainVariable (opt (.seq (sym "=") expression)))

def propertyDeclaration : PhpRule :=
  .node .propertyDeclaration (all [opt attributes, many1 modifier, opt type,
    commaList propertyElement, .alt terminator (propertyHooks parameters)])

/-- How a clash between traits is settled, or a method of one renamed. -/
def traitRule : PhpRule :=
  let visibility := oneKw ["public", "protected", "private"]
  all [.alt (all [className, sym "::", word]) word,
    .alt (.seq (kw "insteadof") (commaList className))
      (.seq (kw "as") (.alt (.seq visibility (opt word)) word)),
    terminator]

def traitUse : PhpRule :=
  .node .traitUse (all [kw "use", commaList className,
    .alt terminator (braces (.many traitRule))])

/-- The kinds of class members, in the order in which they are tried. -/
def memberRules : List PhpRule :=
  [traitUse, methodDeclaration, constantDeclaration, propertyDeclaration]

def memberRule : PhpRule := oneOf memberRules

def enumCase : PhpRule :=
  .node .enumCase (all [opt attributes, kw "case", word, opt (.seq (sym "=") expression),
    terminator])

def enumMemberRule : PhpRule := oneOf [traitUse, enumCase, methodDeclaration, constantDeclaration]

/-! ### Classes and functions -/

def classDeclaration : PhpRule :=
  .node .classDeclaration (all [opt attributes, .many (oneKw ["abstract", "final", "readonly"]),
    kw "class", label, opt baseClause, opt interfaceClause, members])

def interfaceDeclaration : PhpRule :=
  .node .interfaceDeclaration (all [opt attributes, kw "interface", label, opt baseClause, members])

def traitDeclaration : PhpRule :=
  .node .traitDeclaration (all [opt attributes, kw "trait", label, members])

def enumDeclaration : PhpRule :=
  .node .enumDeclaration (all [opt attributes, kw "enum", label, opt (.seq (sym ":") type),
    opt interfaceClause, .node .members (braces (.many (.ref .enumMember)))])

def functionDeclaration : PhpRule :=
  .node .functionDeclaration (all [opt attributes, functionHeader, block])

end EloquentEntity.Syntax.Rules
