import DeployRegistry.Number.Digits

/-!
# Classes of characters in domain labels

Which characters a label of a domain name may hold, and in which direction they are written. The
classes are the table `runs`, which covers the scalar values from zero on in order: each class
letter stands before the number of scalar values in its run. Beside it stand the letters that join
their neighbours, and the scripts that some characters are bound to.
-/

namespace DeployRegistry.Text

set_option autoImplicit false

open Number

inductive LabelClass
  | leftward
  | rightward
  | arabicNumber
  | number
  | mark
  | neutral
  | inContext
  | joiner
  | refused
  deriving DecidableEq, Inhabited

namespace LabelClass

def ofLetter? : Char → Option LabelClass
  | 'R' => some leftward
  | 'L' => some rightward
  | 'A' => some arabicNumber
  | 'E' => some number
  | 'N' => some mark
  | 'S' => some neutral
  | 'O' => some inContext
  | 'J' => some joiner
  | 'X' => some refused
  | _ => none

def runs : String :=
  "X45S1X2E10X39L26X60O1X39L24X1L8X1L1X1L1X1L1X1L1X1L1X1L1X1L1X1L1X1L1X1L1X1L1X1L1X1L1X1L1X1L1" ++
  "X1L1X1L1X1L1X1L1X1L1X1L1X1L1X1L1X1L1X1L1X3L1X1L2X1L1X1L1X1L1X3L1X1L1X1L1X1L1X2L1X1L1X1L1X1L1" ++
  "X1L1X1L1X1L1X1L1X1L1X1L1X1L1X1L1X1L1X1L1X1L1X1L1X1L1X1L1X1L1X1L1X1L1X1L1X1L1X2L1X1L1X1L1X1L1" ++
  "X2L1X1L1X2L1X3L2X4L1X2L1X3L3X2L1X2L1X1L1X1L1X2L1X1L2X1L1X2L1X3L1X1L1X2L3X1L7X10L1X1L1X1L1X1" ++
  "L1X1L1X1L1X1L1X1L2X1L1X1L1X1L1X1L1X1L1X1L1X1L1X1L1X1L2X4L1X3L1X1L1X1L1X1L1X1L1X1L1X1L1X1L1X1" ++
  "L1X1L1X1L1X1L1X1L1X1L1X1L1X1L1X1L1X1L1X1L1X1L1X1L1X1L1X1L1X1L1X1L1X1L1X1L1X1L1X1L1X1L7X2L1X2" ++
  "L2X1L1X4L1X1L1X1L1X1L1X1L97X9S2L7X4S10L2X26S1X1L1X17N64X2N1X3N9X1N32X1L1X1L1X1O1X1L1X3L3X18" ++
  "L1X27L35X8L1X1L1X1L1X1L1X1L1X1L1X1L1X1L1X1L1X1L1X1L1X1L1X1L1X3L1X4L1X2L2X51L48X1L1X1L1X1L1X1" ++
  "L1X1L1X1L1X1L1X1L1X1L1X1L1X1L1X1L1X1L1X1L1X1L1X1L1X1L1X1N5X3L1X1L1X1L1X1L1X1L1X1L1X1L1X1L1X1" ++
  "L1X1L1X1L1X1L1X1L1X1L1X1L1X1L1X1L1X1L1X1L1X1L1X1L1X1L1X1L1X1L1X1L1X1L1X1L1X2L1X1L1X1L1X1L1X1" ++
  "L1X1L1X1L2X1L1X1L1X1L1X1L1X1L1X1L1X1L1X1L1X1L1X1L1X1L1X1L1X1L1X1L1X1L1X1L1X1L1X1L1X1L1X1L1X1" ++
  "L1X1L1X1L1X1L1X1L1X1L1X1L1X1L1X1L1X1L1X1L1X1L1X1L1X1L1X1L1X1L1X1L1X1L1X1L1X1L1X1L1X1L1X1L1X1" ++
  "L1X1L1X1L1X1L1X1L1X41L1X6L39X1L1X8N45X1N1X1N2X1N2X1N1X8R27X4R4O2X27N11X5R32X1R10N21O10X4R2N1" ++
  "R4X4R91X1R1N7X2N6R2N2X1N4R2O10R6X16R1N1R30N27X2R89N11R1X14R43N9R2X7N1X2R22N4R1N9R1N3R1N5X18" ++
  "R25N3X4R11X5R24X1R6X9N8R42N24X1N32L55N1L1N1L4N8L4N1L3N7X8L2N2X2L10X1L16N1L2X1L8X2L2X2L22X1L7" ++
  "X1L1X3L4X2N1L4N4X2L2X2L2N1L1X8L1X8L2N2X2L12X10L1X1N1X2N2L1X1L6X4L2X2L22X1L7X1L1X2L1X2L2X2N1" ++
  "X1L3N2X4N2X2N3X3N1X10L1X9L10N2L3N1X11N2L1X1L9X1L3X1L22X1L7X1L2X1L5X2N1L4N5X1N2L1X1L2N1X2L1" ++
  "X15L2N2X2L10X9L1N6X1N1L2X1L8X2L2X2L22X1L7X1L2X1L5X2N1L2N1L1N4X2L2X2L2N1X7N2L1X7L3N2X2L10X1L1" ++
  "X16N1L1X1L6X3L3X1L4X3L2X1L1X1L2X3L2X3L3X3L12X4L2N1L2X3L3X1L3N1X2L1X6L1X14L10X16N1L3N1L8X1L3" ++
  "X1L23X1L16X2N1L1N3L4X1N3X1N4X7N2X1L3X2L1X2L2N2X2L10X16L1N1L2X1L8X1L3X1L23X1L10X1L5X2N1L8X1L3" ++
  "X1L2N2X7L2X6L2X1L2N2X2L10X1L2X13N2L11X1L3X1L41N2L4N4X1L3X1L3N1L1X5L4X7L3N2X2L10X10L6X1N1L2X1" ++
  "L18X3L24X1L9X1L1X2L7X3N1X4L3N3X1N1X1L8X6L10X2L2X13L48N1L1X1N7X5L7N8X1L10X39L2X1L1X1L5X1L24X1" ++
  "L1X1L10N1L1X1N9L1X2L5X1L1X1N6X2L10X4L2X32L1X10L1X12N2X6L10X11N1X1N1X1N1X4L5X1L4X1L4X1L4X1L4" ++
  "X1L4X1L12X1L3X4N2X1N1X5N5L1N1X1N3X1N2L5N6X1N4X1N4X1N4X1N4X1N4X1N12X1N3X9N1X57L45N4L1N6L1N2L2" ++
  "N2L11X6L8N2L4N3L16N4L13N1L2N2L6N1L15N1X50L43X2L3X256L73X1L4X2L7X1L1X1L4X2L41X1L4X2L33X1L4X2" ++
  "L7X1L1X1L4X2L15X1L57X1L4X2L67X2N3X32L16X16L86X11L620X2L17X1L26X5L75X6L8X7L18N3L1X9L19N2L1X11" ++
  "L18N2X12L13X1L3X1N2X12L52X2L1N7L8N1L2N11X3L1X4L1N1X2L10X38L10X6L89X7L5N2L34N1L1X5L70X10L31X1" ++
  "N3L4N2L3X4L2N1L6N3X10L40X2L5X11L44X4L26X6L10X38L23N2L2N1X4L54N1L1N7X1N1L1N1L2N8L6N10X2N1L10" ++
  "X6L10X13L1X8N14X1N16X49N4L48N1L1N5L1N1L5N1L10X3L10X17N9X12N2L32N4L2N2L1N3L56N1L1N2L3N1L1N3L2" ++
  "X12L44N8L2N2X8L10X3L49X82N3X1N13L1N7L4N1L6N1L3N2L1X5L44X3L1X11L1X18L1X28L13X1L34X37N64X1L1X1" ++
  "L1X1L1X1L1X1L1X1L1X1L1X1L1X1L1X1L1X1L1X1L1X1L1X1L1X1L1X1L1X1L1X1L1X1L1X1L1X1L1X1L1X1L1X1L1X1" ++
  "L1X1L1X1L1X1L1X1L1X1L1X1L1X1L1X1L1X1L1X1L1X1L1X1L1X1L1X1L1X1L1X1L1X1L1X1L1X1L1X1L1X1L1X1L1X1" ++
  "L1X1L1X1L1X1L1X1L1X1L1X1L1X1L1X1L1X1L1X1L1X1L1X1L1X1L1X1L1X1L1X1L1X1L1X1L1X1L1X1L1X1L1X1L1X1" ++
  "L1X1L1X1L1X1L1X1L5X2L2X1L1X1L1X1L1X1L1X1L1X1L1X1L1X1L1X1L1X1L1X1L1X1L1X1L1X1L1X1L1X1L1X1L1X1" ++
  "L1X1L1X1L1X1L1X1L1X1L1X1L1X1L1X1L1X1L1X1L1X1L1X1L1X1L1X1L1X1L1X1L1X1L1X1L1X1L1X1L1X1L1X1L1X1" ++
  "L1X1L1X1L1X1L1X1L1X1L1X1L1X1L1X1L9X8L6X10L8X8L8X8L6X10L8X8L8X8L1X1L1X1L1X1L1X1L1X1L1X1L1X51" ++
  "L2X4L1X15L1X9L3X3L2X8L3X1L4X14L1X21J2X320L1X53L1X2731L48X1L1X3L2X1L1X1L1X1L1X4L1X1L2X1L6X5L1" ++
  "X1L1X1L1X1L1X1L1X1L1X1L1X1L1X1L1X1L1X1L1X1L1X1L1X1L1X1L1X1L1X1L1X1L1X1L1X1L1X1L1X1L1X1L1X1L1" ++
  "X1L1X1L1X1L1X1L1X1L1X1L1X1L1X1L1X1L1X1L1X1L1X1L1X1L1X1L1X1L1X1L1X1L1X1L1X1L1X1L1X1L1X1L1X1L1" ++
  "X1L1X1L1X1L2X7L1X1L1N3X1L1X12L38X1L1X5L1X2L56X23N1L23X9L7X1L7X1L7X1L7X1L7X1L7X1L7X1L7X1N32" ++
  "X47S1X469L3X34N4X14L1X4L86X2N2X2L2X2L90O1L3X6L43X112L32X48L16X512L6592X64L22157X67L46X2L269" ++
  "X3L28X21L1X1L1X1L1X1L1X1L1X1L1X1L1X1L1X1L1X1L1X1L1X1L1X1L1X1L1X1L1X1L1X1L1X1L1X1L1X1L1X1L1X1" ++
  "L1X1L2N1X4N10X1S1X1L1X1L1X1L1X1L1X1L1X1L1X1L1X1L1X1L1X1L1X1L1X1L1X1L1X1L1X2N2L70X10N2X37S9X3" ++
  "L1X1L1X1L1X1L1X1L1X1L1X1L3X1L1X1L1X1L1X1L1X1L1X1L1X1L1X1L1X1L1X1L1X1L1X1L1X1L1X1L1X1L1X1L1X1" ++
  "L1X1L1X1L1X1L1X1L1X1L1X1L1X1L1X1L1X1L1X1L1X1L1X1L1X1L1X1L1X1L8X1L1X1L1X2L1X1L1X1L1X1L1X1L1S1" ++
  "X3L1X1L2X1L1X1L3X1L1X1L1X1L1X1L1X1L1X1L1X1L1X1L1X1L1X1L1X5L1X5L1X1L1X1L1X1L1X1L1X1L1X1L1X1L1" ++
  "X4L1X1L1X6L1X1L1X1L1X1L1X1L1X28L2X2L8N1L3N1L4N1L25N2L1X4N1X19L52X12L68N2X10L10X6N18L6X3L1X1" ++
  "L2N1L38N8X2L23N11L2X44N3L48N1L2N4L2N2L3X14L11X6L5N1L25X1L41N6L2N2L2N2X9L3N1L8N1L1X2L10X6L23" ++
  "X3L2N1L51N1L1N3L2N2L5N2L1N1L1X24L3X2L12N2L2X2L4N1X10L6X2L6X2L6X9L7X1L7X1L43X5L9X87L37N1L2N1" ++
  "L2X1L1N1X2L10X6L11172X8810L2X1L1X1L2X10L1X1L1X1L2X2L3X244N1X769N16X67R1X396L12X1L26X1L19X1L2" ++
  "X1L15X2L14X34L123X258N1X130L29X3L49X15N1X31L32X13L20X1L8X6L38N5X5L30X2L36X4L8X88L118X2L10X46" ++
  "L36X4L40X8L52X51L11X1L15X1L7X1L2X67L311X9L22X10L8X24L1X127R6X2R1X1R44X1R2X3R1X2R23X10R23X9" ++
  "R31X65R19X1R2X10R22X10R26X70R56X6R2X64R1N3X1N2X5N4R4X1R3X1R29X2N3X4N1X32R29X3R29X35R8X1R28N2" ++
  "X25R54X10R22X10R19X13R18X110R73X119R51X13R36N4X8A10X326R42X1N2X3R2X78R29X10R1X8R22N11X31R18" ++
  "N4X42R21X27R23X9L1N1L54N15X31L10N1L2N2L1X9N3L49N4L2N2X7N1X13L25X7L10X6N3L36N5L1N8X1L10X4L4X8" ++
  "L35N1X2L1X9N2L52N9L6X4N4X1L1N1L11X1L1X35L18X1L28N3L2N1L1N2X6N1X65L7X1L1X1L4X1L15X1L10X7L47N1" ++
  "L3N8X5L10X6N2L2X1L8X2L2X2L22X1L7X1L2X1L5X1N2L3N1L4X2L2X2L3X2L1X6L1X5L7X2N7X3N5X139L56N8L2N3" ++
  "L1N1L4X5L10X4N1L3X30L51N6L1N1L4N2L1N2L2X1L1X8L10X166L50N4X2L4N2L1N2X23L4N2X34L51N8L2N1L1N2X3" ++
  "L1X11L10X38L43N1L1N1L2N6L1N1L1X7L10X54L27X2N3L2N4L1N5X4L10X6L7X185L47N9L1N2X133L42X21L8X2L1" ++
  "X2L8X1L2X1L30X1L2X2N2L1N1L4N1X12L10X70L8X2L42N4X2N2L4N1L1X1L2X27L1N6L2N2L40N6L2N4X8N1X8L1N6" ++
  "L2N3L46N13L1N2X3L1X18L73X263L9X1L38N7X1N6L3X15L10X24L30X2N22X1L1N7L1N2L1N2X73L7X1L2X1L38N6X3" ++
  "N1X1N2X1N7L1N1X8L10X6L6X1L2X1L37X1N2X1L2N1L1N1L1X7L10X310L19N2L2X185L1X79L922X230L196X2636" ++
  "L97X15L1071X4049L583X8633L569X7L31X1L10X6L79X1L10X6L30X2N5X11L48N7X9L4X12L10X9L21X5L19X720" ++
  "L32X128L75X4N1L56X7N4L13X64L2X1L1N1X11L2X14L6136X8L1238X42L9X8935L4X1L7X1L2X1L291X45L3X17L4" ++
  "X8L396X2308L107X5L13X3L9X7L10X3N2X4705N46X2N23X2745N55X4N50X8N1X14N1X22N5X1N15X1104L31X225N7" ++
  "X1N17X2N7X1N2X1N5X213L45X3N7L7X2L10X4L1X321L30N1X17L44N4L10X1254L7X1L4X1L2X1L15X1R197X11N7" ++
  "X75R34N7R1X4R10X5798L42720X32L4153X7L222X2L5762X14L7473X5151L4939X912565"

/-- The class of a scalar value that lies `n` above the start of the runs left to read. -/
def readRuns : Nat → Nat → List Char → LabelClass
  | fuel + 1, n, c :: rest =>
    let length := ofDigits (rest.takeWhile Char.isDigit)
    match ofLetter? c with
    | some k => if n < length then k else readRuns fuel (n - length) (rest.dropWhile Char.isDigit)
    | none => refused
  | _, _, _ => refused

end LabelClass

def labelClass (c : Char) : LabelClass :=
  LabelClass.readRuns LabelClass.runs.length c.toNat LabelClass.runs.toList

def inRuns (runs : List (Nat × Nat)) (c : Char) : Bool :=
  runs.any fun r => decide (r.1 ≤ c.toNat) && decide (c.toNat ≤ r.2)

/-- Letters that join the letters on both sides. -/
def joinsBoth : Char → Bool := inRuns [
  (0x620, 0x620), (0x626, 0x626), (0x628, 0x628), (0x62A, 0x62E), (0x633, 0x63F), (0x641,
  0x647), (0x649, 0x64A), (0x66E, 0x66F), (0x679, 0x687), (0x69A, 0x6BF), (0x6C1, 0x6C2),
  (0x6CC, 0x6CC), (0x6CE, 0x6CE), (0x6D0, 0x6D1), (0x6FA, 0x6FC), (0x6FF, 0x6FF), (0x712,
  0x714), (0x71A, 0x71D), (0x71F, 0x727), (0x729, 0x729), (0x72B, 0x72B), (0x72D, 0x72E),
  (0x74E, 0x758), (0x75C, 0x76A), (0x76D, 0x770), (0x772, 0x772), (0x775, 0x777), (0x77A,
  0x77F), (0x7CA, 0x7EA), (0x841, 0x845), (0x848, 0x848), (0x84A, 0x853), (0x855, 0x855),
  (0x860, 0x860), (0x862, 0x865), (0x868, 0x868), (0x886, 0x886), (0x889, 0x88D), (0x8A0,
  0x8A9), (0x8AF, 0x8B0), (0x8B3, 0x8B8), (0x8BA, 0x8C8), (0x1820, 0x1878), (0x1887, 0x18A8),
  (0x18AA, 0x18AA), (0xA840, 0xA871), (0x10AC0, 0x10AC4), (0x10AD3, 0x10AD6), (0x10AD8,
  0x10ADC), (0x10ADE, 0x10AE0), (0x10B80, 0x10B80), (0x10B82, 0x10B82), (0x10B86, 0x10B88),
  (0x10B8A, 0x10B8B), (0x10B8D, 0x10B8D), (0x10B90, 0x10B90), (0x10D01, 0x10D21), (0x10D23,
  0x10D23), (0x10F30, 0x10F32), (0x10F34, 0x10F44), (0x10F70, 0x10F73), (0x10F76, 0x10F81),
  (0x10FB0, 0x10FB0), (0x10FB2, 0x10FB3), (0x10FB8, 0x10FB8), (0x10FBB, 0x10FBC), (0x10FBE,
  0x10FBF), (0x10FC1, 0x10FC1), (0x10FC4, 0x10FC4), (0x1E922, 0x1E943)]

/-- Letters that join the letter before them only. -/
def joinsBefore : Char → Bool := inRuns [
  (0x622, 0x625), (0x627, 0x627), (0x629, 0x629), (0x62F, 0x632), (0x648, 0x648), (0x671,
  0x673), (0x688, 0x699), (0x6C0, 0x6C0), (0x6C3, 0x6CB), (0x6CD, 0x6CD), (0x6CF, 0x6CF),
  (0x6D2, 0x6D3), (0x6D5, 0x6D5), (0x6EE, 0x6EF), (0x710, 0x710), (0x715, 0x719), (0x71E,
  0x71E), (0x728, 0x728), (0x72A, 0x72A), (0x72C, 0x72C), (0x72F, 0x72F), (0x74D, 0x74D),
  (0x759, 0x75B), (0x76B, 0x76C), (0x771, 0x771), (0x773, 0x774), (0x778, 0x779), (0x840,
  0x840), (0x846, 0x847), (0x849, 0x849), (0x854, 0x854), (0x856, 0x858), (0x867, 0x867),
  (0x869, 0x86A), (0x870, 0x882), (0x88E, 0x88E), (0x8AA, 0x8AC), (0x8AE, 0x8AE), (0x8B1,
  0x8B2), (0x8B9, 0x8B9), (0x10AC5, 0x10AC5), (0x10AC7, 0x10AC7), (0x10AC9, 0x10ACA), (0x10ACE,
  0x10AD2), (0x10ADD, 0x10ADD), (0x10AE1, 0x10AE1), (0x10AE4, 0x10AE4), (0x10B81, 0x10B81),
  (0x10B83, 0x10B85), (0x10B89, 0x10B89), (0x10B8C, 0x10B8C), (0x10B8E, 0x10B8F), (0x10B91,
  0x10B91), (0x10D22, 0x10D22), (0x10F33, 0x10F33), (0x10F74, 0x10F75), (0x10FB4, 0x10FB6),
  (0x10FB9, 0x10FBA), (0x10FBD, 0x10FBD), (0x10FC2, 0x10FC3)]

/-- Letters that join the letter after them only. -/
def joinsAfter : Char → Bool :=
  inRuns [(0xA872, 0xA872), (0x10ACD, 0x10ACD), (0x10AD7, 0x10AD7), (0x10D00, 0x10D00)]

def isGreek : Char → Bool :=
  inRuns [(0x370, 0x3E1), (0x3F0, 0x3FF), (0x1D26, 0x1D2A), (0x1F00, 0x1FFF), (0xAB65, 0xAB65)]

def isHebrew : Char → Bool := inRuns [(0x591, 0x5F4), (0xFB1E, 0xFB1E)]

/-- Characters of the three scripts that Japanese is written in. -/
def isJapanese : Char → Bool :=
  inRuns [(0x3005, 0x3005), (0x3007, 0x3007), (0x3041, 0x3096), (0x309D, 0x309E), (0x30A1, 0x30FA),
    (0x30FD, 0x30FE), (0x31F0, 0x31FF), (0x3400, 0x4DBF), (0x4E00, 0x9FFF), (0xFA0E, 0xFA29),
    (0x16FE3, 0x16FE3), (0x16FF0, 0x16FF1), (0x1AFF0, 0x1B167), (0x20000, 0x3134A)]

end DeployRegistry.Text
