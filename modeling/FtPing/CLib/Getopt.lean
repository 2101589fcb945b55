import FtPing.CLib.Strtol

namespace CLib

-- One return of getopt(), with optarg or optopt.
inductive Opt
  | option (letter : Char) (optarg : Option CString)
  | unknown (optopt : Char)
  | missing (optopt : Char)
  deriving DecidableEq

-- What an option string says of a letter: nothing of an unknown one, and otherwise whether an
-- argument belongs to it. A colon is no letter.
def takesArg : CString → Char → Option Bool
  | [], _ => none
  | letter :: rest, c =>
      if letter = c ∧ c ≠ ':' then some (rest.head? = some ':') else takesArg rest c

theorem takesArg_mem {s : CString} {c : Char} {b : Bool} (h : takesArg s c = some b) : c ∈ s := by
  induction s with
  | nil => cases h
  | cons letter rest ih =>
      rw [takesArg] at h
      split_ifs at h with hletter
      · exact hletter.1 ▸ List.mem_cons_self
      · exact List.mem_cons_of_mem _ (ih h)

-- Reads the letters of one argument. The rest of the letters is the argument of one that takes
-- an argument, unless there is none: then the letter is reported as waiting.
def getoptLetters (takesArg : Char → Option Bool) : CString → List Opt × Option Char
  | [] => ([], none)
  | c :: rest =>
      match takesArg c with
      | none => ((getoptLetters takesArg rest).1.cons (.unknown c), (getoptLetters takesArg rest).2)
      | some false =>
          ((getoptLetters takesArg rest).1.cons (.option c none), (getoptLetters takesArg rest).2)
      | some true =>
          match rest with
          | [] => ([], some c)
          | _ :: _ => ([.option c (some rest)], none)

-- All that getopt() returns for the arguments after argv[0], and the operands from
-- argv[optind] on. The options end after "--". At an operand they end too, unless getopt()
-- permutes argv as glibc's does when POSIXLY_CORRECT is not set.
def getopt (permutes : Bool) (takesArg : Char → Option Bool) :
    List CString → List Opt × List CString
  | [] => ([], [])
  | arg :: rest =>
      match arg with
      | ['-', '-'] => ([], rest)
      | '-' :: c :: letters =>
          match getoptLetters takesArg (c :: letters) with
          | (opts, none) =>
              (opts ++ (getopt permutes takesArg rest).1, (getopt permutes takesArg rest).2)
          | (opts, some waiting) =>
              match rest with
              | [] => (opts ++ [.missing waiting], [])
              | optarg :: rest =>
                  (opts ++ .option waiting (some optarg) :: (getopt permutes takesArg rest).1,
                    (getopt permutes takesArg rest).2)
      | _ =>
          if permutes then
            ((getopt permutes takesArg rest).1, arg :: (getopt permutes takesArg rest).2)
          else ([], arg :: rest)

end CLib
