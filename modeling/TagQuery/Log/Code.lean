namespace TagQuery

inductive Severity
  | critical
  | high
  | medium
  | low
deriving DecidableEq, Repr

def Severity.label : Severity → String
  | .critical => "Critical"
  | .high => "High"
  | .medium => "Medium"
  | .low => "Low"

structure CodeEntry where
  code : String
  category : String
  severity : Severity
  recoverable : Bool
  description : String
  action : String
deriving DecidableEq, Repr

namespace CodeEntry

def registry : List CodeEntry :=
  [ ⟨"ERR001", "System", .critical, false,
      "Critical internal error",
      "File a bug report with the failing expression"⟩,
    ⟨"ERR002", "System", .critical, false,
      "System initialization failure",
      "Check logging configuration and environment"⟩,
    ⟨"ERR004", "System", .high, true,
      "Runtime configuration could not be loaded",
      "Fix the configuration file or TAGF_* environment variables"⟩,
    ⟨"E020", "Lexical", .medium, false,
      "Character outside the filter alphabet",
      "Use only letters, digits, '_', '-', '.', parentheses and whitespace"⟩,
    ⟨"E022", "Lexical", .low, false,
      "Number literal is malformed",
      "Write numbers as digits with an optional single decimal part"⟩,
    ⟨"E023", "Lexical", .low, false,
      "Identifier exceeds maximum allowed length",
      "Shorten the tag key or value"⟩,
    ⟨"E027", "Lexical", .high, false,
      "Expression contains too many tokens",
      "Split the filter into smaller groups"⟩,
    ⟨"E041", "Syntax", .medium, false,
      "Expression is empty",
      "Provide at least one tag predicate"⟩,
    ⟨"E042", "Syntax", .medium, false,
      "Parentheses are not balanced",
      "Add the missing '(' or ')'"⟩,
    ⟨"E043", "Syntax", .medium, false,
      "Tokens remain after a complete expression",
      "Join the extra terms with 'and' or 'or'"⟩,
    ⟨"E044", "Syntax", .medium, false,
      "Comparison keyword is not followed by exactly one number",
      "Write comparisons as tag.<key>.gt.<number>"⟩,
    ⟨"E050", "Syntax", .medium, false,
      "Unexpected token during parsing",
      "Check operator placement and predicate spelling"⟩,
    ⟨"E051", "Syntax", .high, false,
      "Nesting depth limit exceeded",
      "Reduce parentheses and stacked 'not' operators"⟩,
    ⟨"E060", "Validation", .medium, false,
      "Tag path has no segments",
      "Rebuild the expression from source text"⟩,
    ⟨"E061", "Validation", .medium, false,
      "Comparison operand is not a finite number",
      "Use a finite numeric operand"⟩,
    ⟨"E062", "Validation", .medium, false,
      "Tag path segment is empty or contains invalid characters",
      "Rebuild the expression from source text"⟩,
    ⟨"E063", "Validation", .high, false,
      "Expression tree is nested too deeply",
      "Reduce nesting of groups and negations"⟩,
    ⟨"E070", "Evaluation", .low, true,
      "Tag value used in a comparison is not numeric",
      "Correct the tag data or choose the no-match policy"⟩,
    ⟨"E080", "Batch", .high, false,
      "Batch exceeds the maximum number of entities",
      "Split the batch into smaller requests"⟩,
    ⟨"E081", "Batch", .critical, false,
      "Batch worker thread failed",
      "File a bug report with the batch input"⟩,
    ⟨"E082", "Batch", .low, true,
      "Membership could not be decided for an entity",
      "Inspect the entity's tag values"⟩,
    ⟨"I004", "System", .low, true,
      "System initialization completed successfully",
      "Continue normal operation"⟩,
    ⟨"I061", "Pipeline", .low, true,
      "Filter compiled successfully",
      "Filter is ready for evaluation"⟩,
    ⟨"I080", "Batch", .low, true,
      "Batch membership evaluation completed",
      "Continue normal operation"⟩ ]

def find? (code : String) : Option CodeEntry := registry.find? fun entry => entry.code = code

def unknown (code : String) : CodeEntry :=
  ⟨code, "Unknown", .medium, true, "Unknown error", "No specific action available"⟩

def ofCode (code : String) : CodeEntry := (find? code).getD (unknown code)

end CodeEntry

end TagQuery
