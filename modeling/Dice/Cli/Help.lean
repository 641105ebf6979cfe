namespace Dice.Cli

def helpLines : List String :=
  ["Flat dice notation (\"2d6 + 1d4 - 3\") parsing and cryptographically secure rolling",
    "",
    "Usage: knucklebones [OPTIONS] [EXPRESSION]...",
    "",
    "Arguments:",
    "  [EXPRESSION]...  Dice expression to roll, such as \"2d6 + 1d4 - 3\". " ++
      "Read from stdin if omitted",
    "",
    "Options:",
    "  -n, --times <TIMES>            Number of times to roll the expression [default: 1]",
    "      --seed <SEED>              Seed a fast, reproducible generator instead of the secure " ++
      "one (NOT suitable for fair play)",
    "      --max-dice <MAX_DICE>      Largest total number of dice the expression may roll",
    "      --list-limit <LIST_LIMIT>  Largest number of individual rolls to list in the output",
    "      --json                     Print each result as a JSON object",
    "  -d, --debug                    Enable debug logging",
    "  -h, --help                     Print help",
    "  -V, --version                  Print version"]

end Dice.Cli
