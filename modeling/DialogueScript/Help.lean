/-
# Help pages

The program explains itself and each of its commands on request.  A page says what a command is for
and how it is called, and lists what it takes in sections; an entry of a section has a label, a text
and perhaps notes, such as a default.

In a summary an entry is one line, and the texts of a section stand in a column.  Only the page of
`script-check` has a full version, in which the text and the notes of an entry stand below its label.
-/

namespace DialogueScript

/-- How much a page says. -/
inductive HelpDetail where
  | summary
  | full
  deriving Repr, DecidableEq

/-- The pages: on the program as a whole, and on its three commands. -/
inductive HelpPage where
  | program
  | checkAll
  | scriptCheck (detail : HelpDetail)
  | help
  deriving Repr, DecidableEq

/-- What a page says about a command, an argument or an option. -/
structure HelpEntry where
  label : String
  text : String
  notes : List String
  deriving Repr, DecidableEq

/-- Entries under a heading. -/
structure HelpSection where
  heading : String
  entries : List HelpEntry
  deriving Repr, DecidableEq

/-! ### Layout -/

namespace HelpEntry

/-- A text of blanks. -/
def blanks (n : Nat) : String :=
  String.ofList (List.replicate n ' ')

/-- The entry on one line, its text behind a column for labels of the given width. -/
def oneLine (width : Nat) (entry : HelpEntry) : String :=
  "  " ++ entry.label ++ blanks (width - entry.label.length) ++ "  "
    ++ " ".intercalate (entry.text :: entry.notes)

/-- The entry with its text below the label, and the notes below an empty line. -/
def paragraph (entry : HelpEntry) : List String :=
  let notes := if entry.notes = [] then [] else "" :: entry.notes
  ("  " ++ entry.label) :: (entry.text :: notes).map (blanks 10 ++ ·)

end HelpEntry

/-- The lines of a section. -/
def HelpSection.lines (s : HelpSection) (detail : HelpDetail) : List String :=
  s.heading :: match detail with
    | .summary =>
      s.entries.map (HelpEntry.oneLine (s.entries.foldl (fun width e => max width e.label.length) 0))
    | .full => [""].intercalate (s.entries.map HelpEntry.paragraph)

/-! ### The pages -/

namespace HelpPage

/-- The version in which a page is shown. -/
def detail : HelpPage → HelpDetail
  | scriptCheck detail => detail
  | _ => .summary

/-- What the command of a page is for, in paragraphs. -/
def about : HelpPage → List String
  | program => ["开发辅助工具 - 质量门禁与脚本检查"]
  | checkAll => ["运行 fmt、clippy、test 门禁检查"]
  | scriptCheck .summary => ["检查脚本文件（动作行语法、空参数、未知动作）"]
  | scriptCheck .full =>
    ["检查脚本文件（动作行语法、空参数、未知动作）",
      "不带路径时检查配置中的 scripts_dir； 路径为目录时递归检查其中匹配扩展名的文件。"]
  | help => ["Print this message or the help of the given subcommand(s)"]

/-- How the command of a page is called. -/
def usage : HelpPage → String
  | program => "Usage: xtask [OPTIONS] <COMMAND>"
  | checkAll => "Usage: xtask check-all [OPTIONS]"
  | scriptCheck _ => "Usage: xtask script-check [OPTIONS] [PATH]"
  | help => "Usage: xtask help [COMMAND]..."

/-- What an option that asks for help gives, on a page that has one. -/
def helpText : HelpPage → String
  | scriptCheck .summary => "Print help (see more with '--help')"
  | scriptCheck .full => "Print help (see a summary with '-h')"
  | _ => "Print help"

/-- The options that every command has. -/
def commonOptions (page : HelpPage) : List HelpEntry :=
  [⟨"-v, --verbose", "输出调试日志", []⟩, ⟨"-h, --help", page.helpText, []⟩]

/-- The sections of a page. -/
def sections (page : HelpPage) : List HelpSection :=
  match page with
  | program =>
    [⟨"Commands:",
        [⟨"check-all", "运行 fmt、clippy、test 门禁检查", []⟩,
          ⟨"script-check", "检查脚本文件（动作行语法、空参数、未知动作）", []⟩,
          ⟨"help", "Print this message or the help of the given subcommand(s)", []⟩]⟩,
      ⟨"Options:", page.commonOptions⟩]
  | checkAll => [⟨"Options:", page.commonOptions⟩]
  | scriptCheck _ =>
    [⟨"Arguments:", [⟨"[PATH]", "脚本文件或目录", []⟩]⟩,
      ⟨"Options:",
        [⟨"-c, --config <CONFIG>", "配置文件（默认：script-check.json）",
            ["[default: script-check.json]"]⟩,
          ⟨"    --format <FORMAT>", "输出格式",
            ["[default: text]", "[possible values: text, json]"]⟩,
          ⟨"    --deny-warnings", "把警告当作错误（覆盖配置文件）", []⟩] ++ page.commonOptions⟩]
  | help => [⟨"Arguments:", [⟨"[COMMAND]...", "Print help for the subcommand(s)", []⟩]⟩]

/-- The lines of a page; its parts are separated by empty lines. -/
def lines (page : HelpPage) : List String :=
  [""].intercalate (page.about.map ([·]) ++ [page.usage] :: page.sections.map (·.lines page.detail))

/-- The text of a page. -/
def text (page : HelpPage) : String :=
  String.join (page.lines.map (· ++ "\n"))

end HelpPage

end DialogueScript
