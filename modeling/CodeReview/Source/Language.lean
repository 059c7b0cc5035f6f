import CodeReview.Disk.Path
import CodeReview.Text.Blank
import CodeReview.Url.Reader

/-!
# Languages of source files

Which language a file is written in, judged by the extension of its name.
-/

namespace CodeReview.Source

open CodeReview.Text

/-- Extensions in lower case, and their languages. -/
def languages : List (String × String) :=
  [("rs", "rust"), ("js", "javascript"), ("jsx", "javascript"), ("mjs", "javascript"),
    ("ts", "typescript"), ("tsx", "typescript"), ("py", "python"), ("java", "java"),
    ("kt", "kotlin"), ("cpp", "cpp"), ("cc", "cpp"), ("cxx", "cpp"), ("hpp", "cpp"), ("c", "c"),
    ("h", "c"), ("cs", "csharp"), ("go", "go"), ("php", "php"), ("rb", "ruby"),
    ("swift", "swift"), ("asm", "assembly"), ("s", "assembly"), ("sh", "shell"), ("sql", "sql"),
    ("html", "html"), ("css", "css")]

/-- The language of the file that a path names. -/
def languageOfPath? (path : String) : Option String :=
  (Path.extension? path).bind fun e => languages.lookup (lowerAscii e)

/-- The path by which a locator is judged: that of a URL with a host, else the locator itself. -/
def judgedPath (locator : String) : String :=
  match Url.parse? locator with
  | some u => if u.host.isSome then u.path.text else locator
  | none => locator

/-- The language of what a locator names. -/
def language? (locator : String) : Option String := languageOfPath? (judgedPath locator)

end CodeReview.Source
