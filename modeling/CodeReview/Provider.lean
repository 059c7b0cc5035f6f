/-!
# Providers of hosted models

The services whose models can be asked, the variables that hold their keys and the addresses of
their public endpoints.
-/

namespace CodeReview

/-- A service that hosts models. -/
inductive Provider where
  | openai
  | anthropic
  | gemini
  | deepseek
  /-- Any endpoint that speaks the first service's format; its address must be given. -/
  | other
  deriving Repr, DecidableEq

namespace Provider

/-- Every provider. -/
def all : List Provider := [openai, anthropic, gemini, deepseek, other]

/-- The name in a configuration and in messages. -/
def name : Provider → String
  | openai => "openai"
  | anthropic => "anthropic"
  | gemini => "gemini"
  | deepseek => "deepseek"
  | other => "other"

/-- Every name under which a provider is recognised. -/
def names (p : Provider) : List String :=
  match p with
  | openai => ["openai", "open_ai", "open-ai"]
  | p => [p.name]

/-- The provider of exactly this name or alias. -/
def ofName? (name : String) : Option Provider :=
  all.find? (·.names.contains name)

/-- The environment variable that holds the key unless a model names another. -/
def keyVariable : Provider → String
  | openai => "OPENAI_API_KEY"
  | anthropic => "ANTHROPIC_API_KEY"
  | gemini => "GEMINI_API_KEY"
  | deepseek => "DEEPSEEK_API_KEY"
  | other => "OTHER_API_KEY"

/-- The address of the public endpoint. -/
def publicBase? : Provider → Option String
  | openai => some "https://api.openai.com/v1"
  | anthropic => some "https://api.anthropic.com/v1"
  | gemini => some "https://generativelanguage.googleapis.com/v1beta"
  | deepseek => some "https://api.deepseek.com/v1"
  | other => none

end Provider

end CodeReview
