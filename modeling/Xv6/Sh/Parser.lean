import Xv6.Sh.Lexer

/-! The parser of `sh.c`. The first argument of a recursive function bounds the depth of its
recursion and the number of rounds of its loops. -/

namespace Xv6.Sh

abbrev MAXARGS : ℕ := 10
abbrev O_RDONLY : ℕ := 0x000
abbrev O_WRONLY : ℕ := 0x001
abbrev O_CREATE : ℕ := 0x200

inductive Cmd
  | exec (argv : List (ℕ × ℕ))
  | redir (cmd : Cmd) (file efile mode fd : ℕ)
  | pipe (left right : Cmd)
  | list (left right : Cmd)
  | back (cmd : Cmd)
  deriving DecidableEq, Repr

def Cmd.addArg (q eq : ℕ) : Cmd → Cmd
  | exec argv => exec (argv ++ [(q, eq)])
  | redir cmd file efile mode fd => redir (addArg q eq cmd) file efile mode fd
  | c => c

variable (b : List UInt8) (es : ℕ)

def parseredirs : ℕ → Cmd → Parser Cmd
  | 0, _ => throw .fuel
  | k + 1, cmd => do
    if ← peek b es [cLt, cGt] then
      let tok ← gettoken b es
      let file ← gettoken b es
      if file.ret ≠ cWord then throw (.panic "missing file for redirection")
      else if tok.ret = cLt then parseredirs k (.redir cmd file.q file.eq O_RDONLY 0)
      else if tok.ret = cGt then parseredirs k (.redir cmd file.q file.eq (O_WRONLY ||| O_CREATE) 1)
      else if tok.ret = cPlus then parseredirs k (.redir cmd file.q file.eq (O_WRONLY ||| O_CREATE) 1)
      else parseredirs k cmd
    else return cmd

def parseargs : ℕ → ℕ → Cmd → Parser Cmd
  | 0, _, _ => throw .fuel
  | k + 1, argc, ret => do
    if ← peek b es [cBar, cRpar, cAmp, cSemi] then return ret
    else
      let tok ← gettoken b es
      if tok.ret = 0 then return ret
      else if tok.ret ≠ cWord then throw (.panic "syntax")
      else if argc + 1 ≥ MAXARGS then throw (.panic "too many args")
      else
        let ret ← parseredirs b es k (ret.addArg tok.q tok.eq)
        parseargs k (argc + 1) ret

def closeblock (k : ℕ) (cmd : Cmd) : Parser Cmd := do
  if !(← peek b es [cRpar]) then throw (.panic "syntax - missing )")
  else
    let _ ← gettoken b es
    parseredirs b es k cmd

def parsebacks : ℕ → Cmd → Parser Cmd
  | 0, _ => throw .fuel
  | k + 1, cmd => do
    if ← peek b es [cAmp] then
      let _ ← gettoken b es
      parsebacks k (.back cmd)
    else return cmd

mutual

def parseline : ℕ → Parser Cmd
  | 0 => throw .fuel
  | k + 1 => do
    let cmd ← parsepipe k
    let cmd ← parsebacks b es k cmd
    if ← peek b es [cSemi] then
      let _ ← gettoken b es
      let right ← parseline k
      return .list cmd right
    else return cmd

def parsepipe : ℕ → Parser Cmd
  | 0 => throw .fuel
  | k + 1 => do
    let cmd ← parseexec k
    if ← peek b es [cBar] then
      let _ ← gettoken b es
      let right ← parsepipe k
      return .pipe cmd right
    else return cmd

def parseblock : ℕ → Parser Cmd
  | 0 => throw .fuel
  | k + 1 => do
    if !(← peek b es [cLpar]) then throw (.panic "parseblock")
    else
      let _ ← gettoken b es
      let cmd ← parseline k
      closeblock b es k cmd

def parseexec : ℕ → Parser Cmd
  | 0 => throw .fuel
  | k + 1 => do
    if ← peek b es [cLpar] then parseblock k
    else
      let ret ← parseredirs b es k (.exec [])
      parseargs b es k 0 ret

end

def nulterminate : Cmd → List UInt8 → List UInt8
  | .exec argv, b => argv.foldl (fun b a => b.set a.2 0) b
  | .redir cmd _ efile _ _, b => (nulterminate cmd b).set efile 0
  | .pipe left right, b => nulterminate right (nulterminate left b)
  | .list left right, b => nulterminate right (nulterminate left b)
  | .back cmd, b => nulterminate cmd b

def parsecmd (s : List UInt8) (k : ℕ) : Except Stop (Cmd × List UInt8) := do
  let b := s ++ [0]
  let es := s.length
  let (cmd, p) ← (parseline b es k).run 0
  let (_, p) ← (peek b es []).run p
  if p ≠ es then throw (.panic "syntax")
  else return (cmd, nulterminate cmd b)

def cstring (b : List UInt8) (q : ℕ) : List UInt8 := (b.drop q).takeWhile (· ≠ 0)

end Xv6.Sh
