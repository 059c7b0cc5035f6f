/-!
# The sample configuration

What `init --write-sample` writes.
-/

namespace CodeReview.Config

/-- The sample configuration. -/
def sample : String :=
  "# reverse-engineer configuration\n" ++
  "\n" ++
  "# Model used when --model is not given\n" ++
  "default_model: gpt-4o\n" ++
  "\n" ++
  "# Model definitions: name -> provider settings.\n" ++
  "# API keys are read from <PROVIDER>_API_KEY (e.g. OPENAI_API_KEY) unless\n" ++
  "# api_key_env names another variable.\n" ++
  "models:\n" ++
  "  gpt-4o:\n" ++
  "    provider: openai\n" ++
  "    max_tokens: 4096\n" ++
  "    temperature: 0.2\n" ++
  "  gpt-4o-mini:\n" ++
  "    provider: openai\n" ++
  "    max_tokens: 4096\n" ++
  "    temperature: 0.2\n" ++
  "  claude-sonnet:\n" ++
  "    name: claude-3-5-sonnet-20241022\n" ++
  "    provider: anthropic\n" ++
  "    max_tokens: 8192\n" ++
  "    temperature: 0.0\n" ++
  "  gemini-pro:\n" ++
  "    name: gemini-1.5-pro\n" ++
  "    provider: gemini\n" ++
  "    max_tokens: 8192\n" ++
  "    temperature: 0.3\n" ++
  "  local-llama:\n" ++
  "    name: llama3\n" ++
  "    provider: other\n" ++
  "    api_base: http://localhost:11434/v1\n" ++
  "    api_key_env: LOCAL_LLM_API_KEY\n" ++
  "    max_tokens: 2048\n" ++
  "    temperature: 0.5\n" ++
  "\n" ++
  "# At most \x60limit\x60 model requests per \x60time_frame\x60 seconds\n" ++
  "rate_limit:\n" ++
  "  limit: 10\n" ++
  "  time_frame: 60\n" ++
  "\n" ++
  "# Timeout for model calls and URL sources, in seconds\n" ++
  "request_timeout_secs: 60\n"

end CodeReview.Config
