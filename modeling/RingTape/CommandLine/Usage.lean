/-
# Usage

The texts that explain the program and its two commands.
-/

namespace RingTape.CommandLine

/-- The name under which the program reports. -/
def programName : String := "tapebf"

/-- How to use the program. -/
def programUsage : String :=
  String.join [
    "Usage:\n",
    "  tapebf run [OPTIONS] <code>...       Execute a program given on the command line\n",
    "  tapebf run [OPTIONS] --file <PATH>   Execute a program stored in a file\n",
    "  tapebf repl [OPTIONS]                Interactive session (also the default)\n",
    "\n",
    "\"tapebf <command> --help\" lists the options of a command.\n",
    "Config: $TAPEBF_CONFIG or <config dir>/tapebf.toml, then TAPEBF_* variables.\n",
    "Logging: RUST_LOG=tapebf=debug (default level: warn).\n",
    "\n"]

/-- How to run a program. -/
def runUsage : String :=
  String.join [
    "Usage:\n",
    "  tapebf run [OPTIONS] \"<code>\"\n",
    "  tapebf run [OPTIONS] --file <PATH>\n",
    "\n",
    "Options:\n",
    "  --file,  -f <PATH>  Read program code from PATH instead of positional \"<code>\"\n",
    "  --debug, -d         Print a step-by-step table of operations to stderr\n",
    "  --ascii, -a         Print output values as characters instead of numbers\n",
    "  --ext,   -x         Enable extension commands: * (double), / (halve), _ (clear)\n",
    "  --tape-size <N>     Number of tape cells (default 30000)\n",
    "  --cells <MODE>      unbounded (default) or byte\n",
    "  --help,  -h         Show this help\n",
    "\n",
    "Notes:\n",
    "- Options must come before the code: everything from the first code argument\n",
    "  on is program text, so code may start with '-' (e.g. \"-.\").\n",
    "- Input (`,`) reads one line from stdin and parses it as an integer; bad or\n",
    "  missing input is reported on stderr and the cell is left unchanged.\n",
    "- Output (`.`) prints the cell value as a number on its own line.\n",
    "- The pointer wraps around both ends of the tape.\n",
    "- Any character that is not a command or a loop bracket is an error.\n",
    "\n",
    "Examples:\n",
    "- Load a program from a file:\n",
    "    tapebf run --file ./program.bf\n",
    "- Feed numbers to `,` from a file:\n",
    "    tapebf run \",[.-]\" < numbers.txt\n",
    "\n"]

/-- How to open a session. -/
def sessionUsage : String :=
  String.join [
    "Usage:\n",
    "  tapebf repl [OPTIONS]\n",
    "\n",
    "Options:\n",
    "  --bare              Read all of stdin, run it once, exit\n",
    "  --editor            Interactive line editor (stdin must be a TTY)\n",
    "  --ascii,  -a        Print output values as characters instead of numbers\n",
    "  --ext,    -x        Enable extension commands: * (double), / (halve), _ (clear)\n",
    "  --tape-size <N>     Number of tape cells (default 30000)\n",
    "  --help,   -h        Show this help\n",
    "\n",
    "Meta commands (a submission starting with \":\"):\n",
    "  :exit    Leave the REPL\n",
    "  :help    List meta commands\n",
    "  :reset   Zero the tape and move the pointer to cell 0\n",
    "  :tape    Print the cells around the pointer\n",
    "\n",
    "Editor keys:\n",
    "  Enter inserts a newline; Ctrl+D submits (Ctrl+Z then Enter on Windows).\n",
    "  Ctrl+C quits immediately.\n",
    "\n",
    "The tape carries over from one submission to the next. Characters that are\n",
    "not commands are dropped before execution.\n",
    "\n",
    "Mode: --bare/--editor, else TAPEBF_REPL_MODE=bare|editor, else editor when\n",
    "stdin is a TTY. Banners are only printed when stderr is a TTY.\n",
    "TAPEBF_REPL_ONCE=1 leaves the editor after the first submission.\n",
    "\n"]

end RingTape.CommandLine
