import ExpressModel.Rule.RuleSet
import ExpressModel.Rule.Basic

/-! # Rule blocks

The rules of a declaration are written under a keyword, each with its comment, if any, on a line
of its own before its label.  When no rule has a label the keyword is commented out, and without
live rules there is no block. -/

namespace ExpressModel.Declaration

variable {ρ : Type} [RuleText ρ]

/-- A line of a rule block, none for an empty text. -/
def ruleLine (text : String) : String :=
  if text.isEmpty then "" else "    " ++ text ++ "\n"

def ruleLines (rule : ρ) : String :=
  ruleLine (RuleText.comment rule) ++ ruleLine (RuleText.label rule)

def ruleHeading (keyword : String) (rules : List ρ) : String :=
  if rules.all fun rule => (RuleText.label rule).isEmpty then "  (* " ++ keyword ++ " *)\n"
  else "  " ++ keyword ++ "\n"

def ruleBlock (keyword : String) (rules : RuleSet ρ) : String :=
  let rules := rules.values
  if rules.isEmpty then ""
  else ruleHeading keyword rules ++ String.join (rules.map ruleLines)

end ExpressModel.Declaration
