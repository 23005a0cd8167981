import Sequencer.Text.EmojiClass
import Sequencer.Text.WidthClass

/-! The columns of a terminal that a text takes. Most characters take as many as they do on their
own. Some are shown as one with what follows them: pictures that are joined or styled, and
letters that some scripts write as one sign. A text is therefore read from its end, and what
follows a character is known when it is read. -/
namespace Sequencer.Text

def joiner : Char := '\u200D'

def pictureSelector : Char := '\uFE0F'

def textSelector : Char := '\uFE0E'

def inRange (first last : Nat) (c : Char) : Bool := first ≤ c.toNat && c.toNat ≤ last

def isIgnoredMark (c : Char) : Bool :=
  #[(0x34F, 0x34F), (0x17B4, 0x17B5), (0x180B, 0x180D), (0x180F, 0x180F), (0xFE00, 0xFE0F),
    (0xE0100, 0xE01EF)].any fun (first, last) => inRange first last c

/-- The later part of a sign of two or three letters. -/
inductive LigatureEnd
  | hebrewLamed
  | bugineseYa
  | bugineseVowel
  | tifinaghConsonant
  | tifinaghJoined
  | lisuTone
  | turkicI
  /-- A letter that can stand below the one before it. -/
  | khmerLetter
deriving DecidableEq, Repr

inductive Next
  | plain
  | lineFeed
  | picture
  | colour
  | flagLetter
  | flagLetters
  | joined
  /-- The frame of a key before `joined`. -/
  | joinedKey
  /-- Letters of flags before `joined`: one, or whether they are even in number. -/
  | joinedFlagLetter
  | joinedFlags (even : Bool)
  /-- The tags of a flag before `joined`, which name a region by letters or by digits. -/
  | joinedTags (letters digits : Nat)
  | alef
  /-- The later part of a sign, and whether a joiner has been read before it. -/
  | ligature (part : LigatureEnd) (afterJoiner : Bool)
deriving DecidableEq, Repr

/-- What follows a character, with the styles that are asked for. -/
structure Following where
  next : Next := .plain
  pictureStyle : Bool := false
  textStyle : Bool := false
deriving DecidableEq, Repr

/-- Whether letters make a sign with what follows in spite of a style between them. -/
def Next.ignoresStyle : Next → Bool
  | .alef | .ligature .. => true
  | _ => false

def Next.isJoinedPicture : Next → Bool
  | .joined | .joinedKey => true
  | _ => false

namespace Following

def withPictureStyle (following : Following) : Following :=
  if following.next.ignoresStyle then { following with pictureStyle := true }
  else if following.next.isJoinedPicture then ⟨following.next, true, false⟩
  else ⟨.plain, true, false⟩

def withTextStyle (following : Following) : Following :=
  if following.next.ignoresStyle then { following with textStyle := true }
  else ⟨.plain, false, true⟩

def withoutPictureStyle (following : Following) : Following :=
  if !following.pictureStyle then following
  else if following.next.ignoresStyle then { following with pictureStyle := false }
  else {}

end Following

def isKhmerLetter (c : Char) : Bool :=
  #[(0x1780, 0x1782), (0x1784, 0x1787), (0x1789, 0x178C), (0x178E, 0x1793), (0x1795, 0x1798),
    (0x179B, 0x179D), (0x17A0, 0x17A0), (0x17A2, 0x17A2), (0x17A7, 0x17A7), (0x17AB, 0x17AC),
    (0x17AF, 0x17AF)].any fun (first, last) => inRange first last c

def isTifinaghConsonant (c : Char) : Bool :=
  inRange 0x2D31 0x2D65 c || c.toNat = 0x2D6F

def ligatureEnd? (c : Char) : Option LigatureEnd :=
  if c.toNat = 0x05DC then some .hebrewLamed
  else if c.toNat = 0x1A10 then some .bugineseYa
  else if c.toNat = 0x10C03 then some .turkicI
  else if inRange 0xA4FC 0xA4FD c then some .lisuTone
  else if isTifinaghConsonant c then some .tifinaghConsonant
  else if isKhmerLetter c then some .khmerLetter
  else none

/-- The columns of a character on its own. One sign stands for a word of three columns. -/
def ownWidth (c : Char) : Nat :=
  if isColour c || isPicture c then 2
  else if c.toNat = 0x17D8 then 3
  else if isColumnless c then 0
  else if isWide c then 2
  else 1

def Next.ofChar (c : Char) : Next :=
  if isColour c then .colour
  else if isFlagLetter c then .flagLetter
  else if isPicture c then .picture
  else if isAlef c then .alef
  else (ligatureEnd? c).elim .plain fun part => .ligature part false

/-- How a character changes the width of what follows, and what it makes of it, if it belongs to
one sign with it. -/
abbrev Joining := Option (Int × Next)

def LigatureEnd.join (part : LigatureEnd) (afterJoiner : Bool) (c : Char) : Joining :=
  if c = joiner then some (0, .ligature part true)
  else if isIgnoredMark c then some (0, .ligature part afterJoiner)
  else
    match part with
    | .hebrewLamed => if afterJoiner && c.toNat = 0x05D0 then some (0, .plain) else none
    | .bugineseYa =>
      if afterJoiner && c.toNat = 0x1A17 then some (0, .ligature .bugineseVowel true) else none
    | .bugineseVowel => if c.toNat = 0x1A15 then some (0, .plain) else none
    | .tifinaghConsonant =>
      if c.toNat = 0x2D7F then some (1, .ligature .tifinaghJoined true)
      else if afterJoiner && isTifinaghConsonant c then some (0, .plain)
      else none
    | .tifinaghJoined => if isTifinaghConsonant c then some (-1, .plain) else none
    | .lisuTone => if inRange 0xA4F8 0xA4FB c then some (0, .plain) else none
    | .turkicI => if afterJoiner && c.toNat = 0x10C32 then some (0, .plain) else none
    | .khmerLetter => if c.toNat = 0x17D2 then some (-1, .plain) else none

/-- Joins a tag, or the black flag at the start of the tags. Regions are named by three digits
at least or by three to six letters. -/
def joinTags (letters digits : Nat) (c : Char) : Joining :=
  if inRange 0xE0061 0xE007A c && digits = 0 && letters < 6 then
    some (0, .joinedTags (letters + 1) 0)
  else if inRange 0xE0030 0xE0039 c && letters ≤ 4 && digits < 3 then
    some (0, .joinedTags letters (digits + 1))
  else if c.toNat = 0x1F3F4 && (digits = 3 || digits = 0 && 3 ≤ letters) then some (0, .picture)
  else none

def joinPicture (c : Char) : Joining :=
  if c.toNat = 0x20E3 then some (0, .joinedKey)
  else if isFlagLetter c then some (1, .joinedFlagLetter)
  else if isColour c then some (0, .colour)
  else if c.toNat = 0xE007F then some (0, .joinedTags 0 0)
  else if isPicture c then some (0, .picture)
  else none

/-- Joins a character to what follows. Letters of flags are paired from the first one on, so that
another letter pairs all of them anew. -/
def Next.join (c : Char) : Next → Joining
  | .plain | .lineFeed | .joinedKey => none
  | .picture => if c = joiner then some (0, .joined) else none
  | .colour =>
    if isColourable c then some (0, .picture) else if c = joiner then some (0, .joined) else none
  | .flagLetter => if isFlagLetter c then some (1, .flagLetters) else none
  | .flagLetters =>
    if isFlagLetter c then some (1, .flagLetters)
    else if c = joiner then some (0, .joined)
    else none
  | .joined => joinPicture c
  | .joinedFlagLetter => if isFlagLetter c then some (-1, .joinedFlags true) else none
  | .joinedFlags even =>
    if isFlagLetter c then some (if even then 3 else -1, .joinedFlags (!even))
    else if c = joiner then some (0, .joined)
    else none
  | .joinedTags letters digits => joinTags letters digits c
  | .alef =>
    if isLam c then some (0, .plain) else if isTransparent c then some (0, .alef) else none
  | .ligature part afterJoiner => part.join afterJoiner c

/-- Puts a control or another character of the first ones before what follows. The end of a line
takes one column also if it is of two characters. -/
def Following.afterControl (c : Char) (following : Following) : Int × Following :=
  if c = '\n' then (1, ⟨.lineFeed, false, false⟩)
  else if c = '\r' && following.next = .lineFeed then (0, {})
  else (1, {})

/-- Puts a character before what follows, and says by how much the width changes. -/
def Following.before (c : Char) (following : Following) : Int × Following :=
  if following.pictureStyle && isStyled c then
    (if following.next.isJoinedPicture then 0 else 2, ⟨.picture, false, false⟩)
  else
    let following := following.withoutPictureStyle
    if c.toNat ≤ 0xA0 then following.afterControl c
    else if c = pictureSelector then (0, following.withPictureStyle)
    else if c = textSelector then (0, following.withTextStyle)
    else if following.textStyle && isNarrowText c then (1, {})
    else
      let (change, next) := (following.next.join c).getD (ownWidth c, .ofChar c)
      (change, ⟨next, false, false⟩)

def displayWidth (text : String) : Nat :=
  let (width, _) := text.toList.foldr
    (fun c (width, following) =>
      let (change, following) := Following.before c following
      (width + change, following))
    ((0 : Int), ({} : Following))
  width.toNat

end Sequencer.Text
