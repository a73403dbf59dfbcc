import Scriptling.Text.Lines

/-!
# The standard project

The directories that a new project starts with, and the text it is introduced with.
-/

namespace Scriptling.Scaffold

open Text (words)

inductive Plan where
  | tree (entries : List (String × Plan))
  /-- Plain directories. An entry that is no name cannot be made. -/
  | names (entries : List (Option String))
  | nothing
  deriving Inhabited

/-- A directory with directories that have some of their own. -/
def branch (name : String) (parts : List (String × Plan)) : String × Plan := (name, .tree parts)

def leaf (name : String) : String × Plan := (name, .names [])

/-- A directory with plain directories, named in one line. -/
def leaves (name line : String) : String × Plan := (name, .names ((words line).map some))

/-- A directory with directories that have none of their own yet. -/
def shelves (name line : String) : String × Plan := branch name ((words line).map leaf)

def sources : List (String × Plan) := [
  branch "core" [
    leaves "ast" "nodes visitors transformers", leaves "lexer" "tokens scanner preprocessor",
    leaves "parser" "grammar ast_builder error_handling",
    leaves "interpreter" "runtime evaluator builtins", leaves "compiler" "bytecode optimizer codegen",
    leaves "vm" "opcodes interpreter garbage_collector"],
  branch "stdlib" [
    leaves "io" "file network serialization", leaves "math" "arithmetic random statistics",
    leaves "collections" "list dict set queue", leaves "concurrent" "threading processes async",
    leaves "os" "path process env", leaves "datetime" "date time timezone",
    leaves "re" "matcher parser", leaves "json" "encoder decoder",
    leaves "http" "client server middleware", leaves "crypto" "hash cipher signature"],
  branch "frontend" [
    leaves "cli" "commands repl completion", leaves "gui" "windows widgets themes",
    leaves "web" "static templates api"],
  branch "backend" [
    leaves "server" "api routing middleware", leaves "database" "orm migrations query",
    leaves "cache" "memory redis memcached", leaves "auth" "jwt oauth permissions"],
  branch "tools" [
    leaves "debugger" "breakpoints inspect profiler", leaves "formatter" "pretty_print minifier",
    leaves "linter" "rules fixers reporters", leaves "doc_generator" "parser renderer templates"],
  branch "utils" [
    leaves "logging" "handlers formatters filters", leaves "testing" "mocks fixtures assertions",
    leaves "types" "annotations validators converters", leaves "async_utils" "tasks synchronization"],
  branch "extensions" [
    leaves "numpy" "array_ops random linalg", leaves "pandas" "dataframe series io",
    leaves "plotting" "matplotlib plotly bokeh", leaves "ml" "preprocessing models metrics"],
  branch "config" [
    leaves "parsers" "json yaml toml env", leaves "loaders" "file env vault"],
  branch "i18n" [
    leaves "locales" "en_US es_ES fr_FR de_DE", leaves "formats" "numbers dates plurals"],
  branch "errors" [
    leaves "handlers" "cli web logging", leaves "types" "syntax runtime validation"],
  shelves "types" "primitives collections functions classes",
  shelves "examples" "beginner intermediate advanced web data_science games"]

def tests : List (String × Plan) := [
  branch "unit" [
    leaves "core" "ast lexer parser interpreter compiler vm",
    leaves "stdlib" "io math collections concurrent os datetime",
    leaves "frontend" "cli gui web", leaves "backend" "server database cache auth"],
  shelves "integration" "api database performance security",
  shelves "e2e" "web cli mobile",
  shelves "benchmarks" "performance memory load",
  shelves "fixtures" "data mocks", leaf "test_utils"]

def manual : List (String × Plan) := [
  branch "source" [
    leaf "getting_started", leaf "tutorials", leaf "how_to_guides",
    shelves "reference" "api cli configuration", leaf "explanation", leaf "changelog"],
  shelves "build" "html latex man epub", leaf "templates",
  shelves "static" "css js images",
  shelves "api" "modules classes functions"]

def deployment : List (String × Plan) := [
  leaf "docker",
  shelves "kubernetes" "manifests helm",
  branch "terraform" [
    leaf "modules",
    shelves "environments" "dev staging prod"],
  shelves "ansible" "playbooks roles inventory",
  shelves "cloud" "aws gcp azure"]

def project : Plan := .tree [
  ("noocrush", .tree sources),
  ("tests", .tree tests),
  ("docs", .tree manual),
  shelves "scripts" "dev build deploy maintenance analysis benchmarking",
  shelves "tools" "code_generation documentation testing profiling packaging",
  shelves "resources" "images fonts templates locales config",
  ("deploy", .tree deployment),
  shelves "benchmarks" "performance memory_usage load_testing comparison",
  shelves "docker" "development production testing services",
  shelves ".github" "workflows ISSUE_TEMPLATE PULL_REQUEST_TEMPLATE",
  shelves "examples" "basic web data_science games tutorials",
  shelves "templates" "project module test documentation",
  shelves "reports" "coverage complexity performance security",
  shelves "logs" "app server debug",
  shelves "build" "dist lib include", leaf "dist", leaf "site"]

/-- The introduction of a new project, line by line. -/
def introduction : List String := [
  "# NooCrush",
  "",
  "A powerful, high-level programming language with a focus on simplicity and productivity.",
  "",
  "## Getting Started",
  "",
  "### Prerequisites",
  "- Python 3.8+",
  "- pip",
  "- git",
  "",
  "### Installation",
  "",
  "```bash",
  "git clone https://github.com/yourusername/noocrush.git",
  "cd noocrush",
  "pip install -e .",
  "```",
  "",
  "### Running the Interpreter",
  "",
  "```bash",
  "noocrush",
  "```",
  "",
  "## Development",
  "",
  "### Setting Up Development Environment",
  "",
  "```bash",
  "# Install development dependencies",
  "pip install -r requirements-dev.txt",
  "",
  "# Run tests",
  "pytest",
  "",
  "# Run linter",
  "flake8",
  "",
  "# Run type checker",
  "mypy .",
  "```",
  "",
  "## Contributing",
  "",
  "Please read [CONTRIBUTING.md](CONTRIBUTING.md) for details on our code of conduct and the process for " ++
    "submitting pull requests.",
  "",
  "## License",
  "",
  "This project is licensed under the MIT License - see the [LICENSE](LICENSE) file for details."]

end Scriptling.Scaffold
