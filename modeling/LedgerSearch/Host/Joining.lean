import LedgerSearch.Host.Composition
import LedgerSearch.Host.Direction

/-
  Where a name may have a mark or a joiner: no mark begins a label, and the joiners, which cannot be
  seen, stand only where they change how a word is written.
-/

namespace LedgerSearch.Host

/-- Marks that take space of their own. -/
def spacingMarks : List CodeRange := CodeRange.all [
    "903 93b 93e-94f 982-983 9be-9cc 9d7 a03 a3e-a40 a83 abe-acc b02-b03 b3e-b57 bbe-bcc bd7",
    "c01-c03 c41-c44 c82-c83 cbe-cd6 d02-d03 d3e-d4c d57 d82-d83 dcf-ddf df2-df3 f3e-f3f f7f",
    "102b-103c 1056-1057 1062-1064 1067-106d 1083-108c 108f 109a-109c 1715 1734 17b6-17c8",
    "1923-1938 1a19-1a1a 1a55-1a72 1b04 1b35-1b44 1b82 1ba1-1baa 1be7-1bf3 1c24-1c35 1ce1 1cf7",
    "302e-302f a823-a827 a880-a881 a8b4-a8c3 a952-a953 a983 a9b4-a9c0 aa2f-aa34 aa4d aa7b-aa7d",
    "aaeb-aaef aaf5 abe3-abea abec 11000-11002 11082 110b0-110b8 1112c 11145-11146 11182",
    "111b3-111c0 111ce 1122c-11235 112e0-112e2 11302-11303 1133e-1134d 11357 11362-11363",
    "11435-11445 114b0-114c1 115af-115be 11630-1163e 116ac-116b6 11720-11726 1182c-11838",
    "11930-1193d 11940 11942 119d1-119df 119e4 11a07-11a08 11a39 11a57-11a58 11a97 11c2f-11c3f",
    "11ca9-11cb4 11d8a-11d96 11ef5-11ef6 16f51-16f87 16ff0-16ff1 1d165-1d166 1d16d-1d172"]

/-- A mark, whether or not it takes space of its own. -/
def isMark (c : Char) : Bool := inAny nonspacingMarks c || inAny spacingMarks c

/-- The rank of the signs that take the vowel from the letter before them. -/
def viramaRank : Nat := 9

/-- Letters that join to both sides. -/
def dualJoining : List CodeRange := CodeRange.all [
    "620 626 628 62a-62e 633-63f 641-647 649-64a 66e-66f 678-687 69a-6bf 6c1-6c2 6cc 6ce 6d0-6d1",
    "6fa-6fc 6ff 712-714 71a-71d 71f-727 729 72b 72d-72e 74e-758 75c-76a 76d-770 772 775-777",
    "77a-77f 7ca-7ea 841-845 848 84a-853 855 860 862-865 868 886 889-88d 88f 8a0-8a9 8af-8b0",
    "8b3-8b8 8ba-8c8 1807 1820-1878 1887-18a8 18aa a840-a871 10ac0-10ac4 10ad3-10ad6 10ad8-10adc",
    "10ade-10ae0 10aeb-10aee 10b80 10b82 10b86-10b88 10b8a-10b8b 10b8d 10b90 10bad-10bae",
    "10d01-10d21 10d23 10ec3-10ec4 10ec6-10ec7 10f30-10f32 10f34-10f44 10f51-10f53 10f70-10f73",
    "10f76-10f81 10fb0 10fb2-10fb3 10fb8 10fbb-10fbc 10fbe-10fbf 10fc1 10fc4 10fca 1e900-1e943"]

/-- Letters that join to what is before them. -/
def rightJoining : List CodeRange := CodeRange.all [
    "622-625 627 629 62f-632 648 671-673 675-677 688-699 6c0 6c3-6cb 6cd 6cf 6d2-6d3 6d5 6ee-6ef",
    "710 715-719 71e 728-72c/2 72f 74d 759-75b 76b-76c 771 773-774 778-779 840 846-847 849 854",
    "856-858 867 869-882 88e 8aa-8ac 8ae 8b1-8b2 8b9 10ac5 10ac7 10ac9-10aca 10ace-10ad2 10add",
    "10ae1 10ae4 10aef 10b81 10b83-10b85 10b89 10b8c 10b8e-10b8f 10b91 10ba9-10bac 10d22 10ec2",
    "10f33 10f54 10f74-10f75 10fb4-10fb6 10fb9-10fba 10fbd 10fc2-10fc3 10fc9"]

/-- Letters that join to what is after them. -/
def leftJoining : List CodeRange := CodeRange.all ["a872 10acd 10ad7 10d00 10fcb"]

/-- Characters letters join across, beside the marks. -/
def alsoTransparent : List CodeRange := CodeRange.all ["cbf cc6 11a07-11a08 11c3f 1e94b"]

/-- A character that joining looks through. -/
def isTransparent (c : Char) : Bool := inAny nonspacingMarks c || inAny alsoTransparent c

/-- The sign that keeps two letters apart. -/
def nonJoiner : Char := Char.ofNat 0x200C

/-- The sign that joins two letters. -/
def joiner : Char := Char.ofNat 0x200D

/-- Whether a letter of one of these kinds comes first of the characters nothing joins across. -/
def meets (letters : List CodeRange) (cs : List Char) : Bool :=
  match cs.dropWhile fun c => isTransparent c && !inAny letters c with
  | c :: _ => inAny letters c
  | [] => false

/-- Whether a joiner may stand between these, the nearest character first on both sides: after a
    virama, or, if it keeps letters apart, between letters that would join. -/
def isJoinerPlace (c : Char) (before after : List Char) : Bool :=
  match before with
  | [] => false
  | previous :: _ =>
    rank previous == viramaRank ||
      (c == nonJoiner && meets (leftJoining ++ dualJoining) before &&
        meets (rightJoining ++ dualJoining) after)

/-- Whether every joiner has its place, after the characters of `before`, the last of them first. -/
def joinersFit (before : List Char) : List Char → Bool
  | [] => true
  | c :: rest =>
    (!(c == nonJoiner || c == joiner) || isJoinerPlace c before rest) &&
      joinersFit (c :: before) rest

end LedgerSearch.Host
