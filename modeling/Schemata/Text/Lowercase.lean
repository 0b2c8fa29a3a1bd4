import Schemata.Text.CaseTable

/-!
# Lowercase texts

Every letter becomes its lowercase letter. A capital I with a dot becomes two characters, and a
capital sigma that ends a word becomes the final sigma.
-/

set_option autoImplicit false

namespace Schemata

def lowerChar (char : Char) : List Char :=
  if char.toNat < 0x80 then [char.toLower]
  else if char = '\u0130' then ['i', '\u0307']
  else
    match caseRuns.find? (·.has char.toNat) with
    | some run => [Char.ofNat (char.toNat + run.shift).toNat]
    | none => [char]

def leadsToCased (chars : List Char) : Bool :=
  (chars.dropWhile isCaseIgnorable).head?.any isCased

def lowerSigma (before after : List Char) : Char :=
  if leadsToCased before && !leadsToCased after then 'ς' else 'σ'

/-- Lowercase the characters behind `before`, which holds those in front, the nearest first. -/
def lowerFrom (before : List Char) : List Char → List Char
  | [] => []
  | char :: rest =>
      if char = 'Σ' then lowerSigma before rest :: lowerFrom (char :: before) rest
      else lowerChar char ++ lowerFrom (char :: before) rest

def lowercase (text : List Char) : List Char := lowerFrom [] text

example : lowercase "ΑΣ ΣΑ Σ".toList = "ας σα σ".toList := by decide +kernel

end Schemata
