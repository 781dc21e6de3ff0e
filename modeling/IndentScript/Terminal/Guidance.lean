/-!
The longer texts that the terminal shows: the list of its commands, and the pieces of its
tutorial and of its examples. Each starts and ends with a line end of its own.
-/

namespace IndentScript.Terminal

def helpText : String :=
  String.intercalate "\n" [
    "",
    "FFling Terminal Commands (Package Manager Included):",
    "  :help                    Show this help",
    "  :quit                    Exit the terminal",
    "  :version                 Show version",
    "  :history                 Show command history",
    "  :clear_history           Clear history",
    "  :goto <path>             Change working directory",
    "  :install <name> <url>    Install package from GitHub",
    "  :uninstall <name>        Uninstall package",
    "  :update <name>           Update package",
    "  :install_list            List installed packages",
    "  :setup <path>            Setup FFling at path",
    "  :load <file>             Load FFling code from file",
    "  :save <code/file>        Save code to file",
    "  :exec <code>             Execute FFling code",
    "  :eval <expr>             Evaluate expression",
    "  :list                    List recent commands",
    "  :reset                   Reset interpreter state",
    "  :info                    Show interpreter info",
    "  :tutorial <topic>        Built-in tutorial",
    "  :examples <cat>          Show examples",
    "  :search_history <query>  Search history",
    "  :export_vars <file>      Export variables to file",
    "  :import_code <file>      Import code with imports",
    "  :run_tests               Run basic tests",
    "  :stats                   Show session stats",
    "  :config <key> <val>      Set configuration",
    "  :time_exec <code>        Time code execution",
    "  :benchmark <n>           Run benchmark",
    ""]

def tutorialText? : String → Option String
  | "intro" => some <| String.intercalate "\n" [
      "",
      "FFling Tutorial - Intro",
      "FFling is a programming language.",
      "Basic: printline(\"Hello\")",
      "Variables: local a = 10",
      ""]
  | "variables" => some <| String.intercalate "\n" [
      "",
      "Variables: local x = 5 + 3",
      "local name = \"FFling\"",
      ""]
  | "loops" => some <| String.intercalate "\n" [
      "",
      "for i in range(5):",
      "    printline(i)",
      ""]
  | _ => none

def examplesText? : String → Option String
  | "basic" => some <| String.intercalate "\n" [
      "",
      "printline(\"Hello World\")",
      "local a = 10",
      "printline(\"Value:\", a)",
      ""]
  | "logic" => some <| String.intercalate "\n" [
      "",
      "if (True and False):",
      "    printline(\"Yes\")",
      ""]
  | _ => none

end IndentScript.Terminal
