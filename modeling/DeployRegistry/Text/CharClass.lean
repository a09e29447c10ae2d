import DeployRegistry.Number.Digits

/-!
# Classes of characters

Six classes into which all characters fall: letters, marks, decimal digits, other numbers,
characters that are only shown, and characters that show nothing of themselves. The classes are the
table `runs`, which covers all scalar values in order: each class letter stands before the number
of scalar values in its run.
-/

namespace DeployRegistry.Text

set_option autoImplicit false

open Number

inductive CharClass
  | letter
  | mark
  | digit
  | number
  | shown
  | hidden
  deriving DecidableEq, Inhabited

namespace CharClass

def ofLetter? : Char → Option CharClass
  | 'L' => some letter
  | 'M' => some mark
  | 'D' => some digit
  | 'N' => some number
  | 'S' => some shown
  | 'U' => some hidden
  | _ => none

def runs : String :=
  "U32S16D10S7L26S6L26S4U34S9L1S2U1S4N2S1L1S3N1L1S1N3S1L23S1L31S1L458S4L12S14L5S7L1S1L1S17M112" ++
  "L5S1L2U2L4S1L1U4S2L1S1L3U1L1U1L20U1L83S1L139S1M7L166U1L38U2L1S6L41S2U2S3U1M45S1M1S1M2S1M2S1" ++
  "M1U8L27U4L4S2U17S10M11S1U1S3L43M21D10S4L2M1L99S1L1M7U1S1M6L2M2S1M4L2D10L3S2L1S14U2L1M1L30M27" ++
  "U2L89M11L1U14D10L33M9L2S4L1U2M1S2L22M4L1M9L1M3L1M5U2S15U1L25M3U2S1U1L11U5L24S1L6U9M8L42M24U1" ++
  "M33L54M3L1M18L1M7L10M2S2D10S1L16M3U1L8U2L2U2L22U1L7U1L1U3L4U2M1L1M7U2M2U2M3L1U8M1U4L2U1L3M2" ++
  "U2D10L2S2N6S2L1S1M1U2M3U1L6U4L2U2L22U1L7U1L2U1L2U1L2U2M1U1M5U4M2U2M3U3M1U7L4U1L1U7D10M2L3M1" ++
  "S1U10M3U1L9U1L3U1L22U1L7U1L2U1L5U2M1L1M8U1M3U1M3U2L1U15L2M2U2D10S2U7L1M6U1M3U1L8U2L2U2L22U1" ++
  "L7U1L2U1L5U2M1L1M7U2M2U2M3U7M3U4L2U1L3M2U2D10S1L1N6U10M1L1U1L6U3L3U1L4U3L2U1L1U1L2U3L2U3L3U3" ++
  "L12U4M5U3M3U1M4U2L1U6M1U14D10N3S8U5M5L8U1L3U1L23U1L16U2M1L1M7U1M3U1M4U7M2U1L3U2L1U2L2M2U2D10" ++
  "U7S1N7S1L1M3S1L8U1L3U1L23U1L10U1L5U2M1L1M7U1M3U1M4U7M2U6L2U1L2M2U2D10U1L2U13M4L9U1L3U1L41M2" ++
  "L1M7U1M3U1M4L1S1U4L3M1N7L3M2U2D10N9S1L6U1M3U1L18U3L24U1L9U1L1U2L7U3M1U4M6U1M1U1M8U6D10U2M2S1" ++
  "U12L48M1L2M7U4S1L7M8S1D10S2U37L2U1L1U1L5U1L24U1L1U1L10M1L2M9L1U2L5U1L1U1M6U2D10U2L4U32L1S23" ++
  "M2S6D10N10S1M1S1M1S1M1S4M2L8U1L36U4M20S1M2L5M11U1M36U1S8M1S6U1S13U37L43M20L1D10S6L6M4L4M3L1" ++
  "M3L2M7L3M4L13M12L1M1D10M4S2L38U1L1U5L1U2L43S1L333U1L4U2L7U1L1U1L4U2L41U1L4U2L33U1L4U2L7U1L1" ++
  "U1L4U2L15U1L57U1L4U2L67U2M3S9N20U3L16S10U6L86U2L6U2S1L620S2L17U1L26S2U3L75S3N3L8U7L18M4U9L19" ++
  "M3S2U9L18M2U12L13U1L3U1M2U12L52M32S3L1S4L1M1U2D10U6N10U6S11M3U1M1D10U6L89U7L5M2L34M1L1U5L70" ++
  "U10L31U1M12U4M12U4S1U3S2D10L30U2L5U11L44U4L26U6D10N1U3S34L23M5U2S2L53M10U1M29U2M1D10U6D10U6" ++
  "S7L1S6U2M31U49M5L47M17L8U3D10S17M9S11U1M3L30M13L2D10L44M14U8S4L36M20U3S5D10U3L3D10L36S2L9U7" ++
  "L43U2L3S8U8M3S1M21L4M1L6M1L2M3L1U5L192M64L278U2L6U2L38U2L6U2L8U1L1U1L1U1L1U1L31U2L53U1L7S1L1" ++
  "S3L3U1L7S3L4U2L6U1S3L13S3U2L3U1L7S2U17S24U8S47U17N1L1U2N6S5L1N10S5U1L13U3S33U15M33U15S2L1S4" ++
  "L1S2L10S1L1S3L5S6L1S1L1S1L1S1L4S1L11S2L4S5L5S4L1S1N51L2N5S2U4S663U25S11U21N60S78N22S630N30" ++
  "S992U2S32U1S105L229S6L4M3L2U5S4N1S2L38U1L1U5L1U2L56U7L1S1U14M1L23U9L7U1L7U1L7U1L7U1L7U1L7U1" ++
  "L7U1L7U1M32S47L1S46U34S26U1S89U12S214U26S12U5S4L2N1S25N9M6S1L5S2N3L2S3U1L86U2M2S2L3S1L90S1L4" ++
  "U5L43U1L94U1S2N4S10L32S36U12L16S31U1N10S30N8S1N15S32N10S39N15S320L6592S64L22157U3S55U9L46S2" ++
  "L269S3L16D10L2U20L47M4S1M10S1L31M2L70N10M2S6U8S23L9S2L103S2L64U5L2U1L1U1L5U24L16M1L3M1L4M1" ++
  "L23M5S4M1U3N6S4U6L52S4U8M2L50M18U8S2D10U6M18L6S3L1S1L2M1D10L28M8S2L23M13U11S1L29U3M4L47M14" ++
  "S13U1L1D10U4S2L5M1L10D10L5U1L41M14U9L3M1L8M2U2D10U2S4L23S3L1M3L50M1L1M3L2M2L5M2L1M1L1U24L3S2" ++
  "L11M5S2L3M2U10L6U2L6U2L6U9L7U1L7U1L43S1L14S2U4L115M8S1M2U2D10U6L11172U12L23U4L49U8452L366U2" ++
  "L106U38L7U12L5U5L1M1L10S1L13U1L5U1L1U1L2U1L2U1L108S17U16L363S18L64U2L54U7S1U32L12S4M16S10U6" ++
  "M16S35U1S19U1S4U4L5U1L135U4S15D10S7L26S6L26S11L89U3L6U2L6U2L6U2L3U3S7U1S7U13S2U2L12U1L26U1" ++
  "L19U1L2U1L15U2L14U34L123U5S3U4N45U3S9N57S17N2S3U1S13U3S1U47S45M1U130L29U3L49U15M1N27U4L32N4" ++
  "U9L20N1L8N1U5L38M5U5L30U1S1L36U4L8S1N5U42L158U2D10U6L36U4L36U4L40U8L52U11S1L11U1L15U1L7U1L2" ++
  "U1L11U1L15U1L7U1L2U67L311U9L22U10L8U24L6U1L42U1L9U69L6U2L1U1L44U1L2U3L1U2L23U1S1N8L23S2N7L31" ++
  "U8N9U48L19U1L2U5N5L22N6U3S1L26U5S1U64L56U4N2L2N16U2N46L1M3U1M2U5M4L4U1L3U1L29U2M3U4M1N9U7S9" ++
  "U7L29N2S1L29N3U32L8S1L28M2U4N5S7U9L54U3S7L22U2N8L19U5N8L18U7S4U12N7U80L73U55L51U13L51U7N6L36" ++
  "M4U8D10U294N31U1L42U1M2S1U2L2U78L29N10L1U8L22M11N4S5U22L18M4S4U38L21N7U20L23U9M3L53M15S7U4" ++
  "N20D10M1L2M2L1U9M4L45M11S2U1S4M1U13L25U7D10U6M3L36M14U1D10S4L1M2L1U8L35M1S2L1U9M3L48M14L4S4" ++
  "M4S1M2D10L1S1L1S3U1N20U11L18U1L25M12S6M1U65L7U1L1U1L4U1L15U1L10S1U6L47M12U5D10U6M4U1L8U2L2U2" ++
  "L22U1L7U1L2U1L5U1M2L1M7U2M2U2M3U2L1U6M1U5L5M2U2M7U3M5U139L53M18L4S5D10S2U1S1M1L3U30L48M20L2" ++
  "S1L1U8D10U166L47M7U2M9S23L4M2U34L48M17S3L1U11D10U6S13U19L43M13L1S1U6D10U54L27U2M15U4D10N2S4" ++
  "L7U185L44M15S1U100L64D10N9U12L8U2L1U2L8U1L2U1L24M6U1M2U2M4L1M1L1M2S3U9D10U70L8U2L39M7U2M7L1" ++
  "S1L1M1U27L1M10L40M7L1M4S8M1U8L1M11L46M16S3L1S5U13L73U263L9U1L37M8U1M8L1S5U10D10N19U3S2L30U2" ++
  "M22U1M14U73L7U1L2U1L38M6U3M1U1M2U1M7L1M1U8D10U6L6U1L2U1L32M5U1M2U1M5L1U7D10U310L19M4S2U183L1" ++
  "U15N21S29U13S1L922U102N111U1S5U11L196U2636L97S2U13L1071U4049L583U8633L569U7L31U1D10U4S2L79U1" ++
  "D10U6L30U2M5S1U10L48M7S9L4S2U10D10U1N7U1L21U5L19U688L64N23S4U101L75U4M1L1M55U7M4L13U64L2S1L1" ++
  "M1U11M2U14L6136U8L1238U42L9U8935L4U1L7U1L2U1L291U45L3U17L4U8L396U2308L107U5L13U3L9U7L10U2S1" ++
  "M2S1U4704M46U2M23U9S116U60S246U10S39U2S60M5S3M6U8M8S2M7S30M4S61U21S66M3S1U154N20U12S87U9N25" ++
  "U135L85U1L71U1L2U2L1U2L2U2L4U1L12U1L1U1L7U1L65U1L4U2L8U1L7U1L28U1L4U1L5U1L1U3L7U1L340U2L25S1" ++
  "L25S1L31S1L25S1L31S1L25S1L31S1L25S1L31S1L25S1L8U2D50S512M55S4M50S8M1S14M1S7U15M5U1M15U1104" ++
  "L31U225M7U1M17U2M7U1M2U1M5U213L45U3M7L7U2D10U4L1S1U320L30M1U17L44M4D10U5S1U1248L7U1L4U1L2U1" ++
  "L15U1L197U2N9M7U41L68M7L1U4D10U4S2U785N59S1N3S1N4U76N45S1N15U194L4U1L27U1L2U1L1U2L1U1L10U1L4" ++
  "U1L1U1L1U6L1U4L1U1L1U1L1U1L3U1L2U1L1U2L1U1L1U1L1U1L1U1L1U1L2U1L1U2L4U1L7U1L4U1L4U1L1U1L10U1" ++
  "L17U5L3U1L5U1L17U52S2U270S44U4S100U12S15U2S15U1S15U1S37U10N13S161U56S29U13S44U4S9U7S2U14S6" ++
  "U154S984U5S16U3S13U3S116U12S89U7S12U4S1U15S12U4S56U8S10U6S40U8S30U2S2U78S340U12S14U2S5U3S5U3" ++
  "S7U9S29U3S11U5S6U10S10U6S8U8S7U9S147U1S55U37D10U1030L42720U32L4153U7L222U2L5762U14L7473U3103" ++
  "L542U1506L4939U716213M240U196112"

/-- The first scalar value of each run, with its class. -/
def readRuns : Nat → Nat → List Char → List (Nat × CharClass)
  | fuel + 1, start, c :: rest =>
    match ofLetter? c with
    | some k =>
      (start, k) ::
        readRuns fuel (start + ofDigits (rest.takeWhile Char.isDigit)) (rest.dropWhile Char.isDigit)
    | none => []
  | _, _, _ => []

def starts : List (Nat × CharClass) := readRuns runs.length 0 runs.toList

/-- The run that holds a scalar value: the last one that starts at or before it. -/
def runOf (found : Nat × CharClass) (n : Nat) : List (Nat × CharClass) → Nat × CharClass
  | [] => found
  | r :: rest => if n < r.1 then found else runOf r n rest

def run (c : Char) : Nat × CharClass := runOf (0, hidden) c.toNat starts

end CharClass

def charClass (c : Char) : CharClass := (CharClass.run c).2

/-- A letter or a number of any kind. -/
def isAlphanumeric (c : Char) : Bool :=
  match charClass c with
  | .letter => true
  | .digit => true
  | .number => true
  | _ => false

def isMark (c : Char) : Bool := charClass c == .mark

/-- Whether a character shows something of itself in a message; of the blanks only the plain one
does. -/
def isShown (c : Char) : Bool := charClass c != .hidden

/-- The value of a decimal digit of any script. Digits come in runs of ten, from zero to nine. -/
def decimalValue? (c : Char) : Option Nat :=
  let (start, k) := CharClass.run c
  if k = .digit then some ((c.toNat - start) % 10) else none

end DeployRegistry.Text
