import ObserverLint.Ignore.File

namespace ObserverLint.Ignore

namespace ExcludesSetting

def lineFeed : UInt8 := 0x0A

def quote : UInt8 := 0x22

def isBlank (b : UInt8) : Bool := b == 0x20 || (0x09 ≤ b && b ≤ 0x0D)

def skipBlanks (bs : List UInt8) : List UInt8 := bs.dropWhile isBlank

def lowered (b : UInt8) : UInt8 := if 0x41 ≤ b && b ≤ 0x5A then b + 0x20 else b

/-- What follows a word at the front, in whatever case. -/
def afterWord? : List UInt8 → List UInt8 → Option (List UInt8)
  | [], bs => some bs
  | _ :: _, [] => none
  | w :: ws, b :: bs => if w = lowered b then afterWord? ws bs else none

/-- Whether a line ends after some blanks, which may be line ends themselves. -/
def lineEnds (bs : List UInt8) : Bool :=
  (bs.takeWhile isBlank).contains lineFeed || (skipBlanks bs).isEmpty

/-- Whether nothing but a quote may stand between here and the end of a line. -/
def isDone (bs : List UInt8) : Bool :=
  lineEnds bs ||
    match skipBlanks bs with
    | b :: rest => b == quote && lineEnds rest
    | [] => false

/-- The shortest value at the front: bytes that are not blank, up to where the setting is done. -/
def value? : List UInt8 → Option (List UInt8)
  | [] => none
  | b :: bs =>
    if isBlank b then none
    else if isDone bs then some [b]
    else (value? bs).map (b :: ·)

/-- The value after an equals sign; a quote before it does not belong to it, if there is more. -/
def quotedValue? (bs : List UInt8) : Option (List UInt8) :=
  let bs := skipBlanks bs
  match bs with
  | [] => none
  | b :: rest =>
    if b = quote then (value? (skipBlanks rest)).orElse fun _ => value? bs else value? bs

def atLine? (bs : List UInt8) : Option (List UInt8) := do
  let rest ← afterWord? (Text.bytes "excludesfile".toList) (skipBlanks bs)
  quotedValue? (← afterWord? (Text.bytes ['=']) (skipBlanks rest))

def find? (atStart : Bool) : List UInt8 → Option (List UInt8)
  | [] => none
  | b :: bs =>
    (if atStart then atLine? (b :: bs) else none).orElse fun _ => find? (b == lineFeed) bs

end ExcludesSetting

/-- The path that some settings name; each tilde in it stands for the home directory. -/
def excludesPath? (home : Path) (settings : Contents) : Option Path := do
  let contents := Contents.ofBytes (← ExcludesSetting.find? true settings.bytes)
  let expanded := contents.text.toList.flatMap fun c => if c = '~' then home.text.toList else [c]
  if contents.whole then some ⟨String.ofList expanded⟩ else none

def settingsFiles : List Path := [⟨".gitconfig"⟩, ⟨".config/git/config"⟩]

/-- The ignore file that the settings of a user name, or else the one below `.config`. -/
def userFile (disk : Disk) (home : Path) : Path :=
  let named := settingsFiles.findSome? fun file =>
    (disk.contents (home.join file)).toOption.bind (excludesPath? home)
  named.getD (home.join ⟨".config/git/ignore"⟩)

def Rules.ofUser (disk : Disk) : Rules :=
  match disk.home with
  | none => {}
  | some home =>
    let file := userFile disk home
    .ofFile file ((disk.find file).toOption.map Spot.entry)

end ObserverLint.Ignore
