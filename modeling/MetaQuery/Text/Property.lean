/-
  MetaQuery/Text/Property.lean
  ============================
  Yes-or-no properties of characters, as the Unicode character database gives them.  A property
  holds of the characters of some general categories, of some ranges beside them, and not of
  some exceptions.
-/
import MetaQuery.Text.Category
import MetaQuery.Text.Ranges

namespace MetaQuery.Text

/-- A property by its names, in lower case and without separators, and where it holds. -/
structure Property where
  names : List String
  categories : List Category
  also : List (Nat × Nat)
  except : List (Nat × Nat)
deriving DecidableEq, Repr

def Property.holds (p : Property) (n : Nat) : Bool :=
  (p.categories.contains (categoryOf n) && !inRanges p.except n) || inRanges p.also n

def properties : List Property := [
  { names := ["alpha", "alphabetic"]
    categories := [.lu, .ll, .lt, .lm, .lo, .mn, .mc, .nl]
    also := rangesOf "9398+51 117831+25 7+25 7+25"
    except := rangesOf (
      "768+68 2+41 276+4 266+30 169 135+1 10+2 84+10 161+8 10 27+1 20 44+2 61+7 43+9 13+1 9+5 " ++
      "77 17 4+3 104 17 49 62 17 111 17 48+2 61 17 8 120 111 17 111 17 110+1 17 125 125+5 2 " ++
      "108 14+4 2 74+1 28 2 2 5+1 69 2+1 63 113 2+1 803+2 949+1 31 128+1 20+10 10 46+2 2 " ++
      "298+2 293 21+7 3 49+13 4+10 105 16 39+8 55+1 59 12+1 68 153+2 2+20 5 7 3+2 199+38 " ++
      "15+10 721+12 5 4+11 3071+2 142 683+5 106+1 30165 13+1 115+1 277 38 152 28+17 58+2 38 " ++
      "96 13 255 2 53 246+1 21011+15 17+15 974 227 1880+2 5 166+1 1047+2 71+10 50+3 193 42 15 " ++
      "58+1 121+1 63 77 9+3 105+1 179+1 81+1 17 25+6 4+4 206 4 24 100+1 252+1 127 119+1 116 " ++
      "270+1 259+1 5 157 83+1 19 81+1 422 259 2+1 82 426+1 5374 7+14 13979+4 60+6 1198 19641 " ++
      "4707+45 3+22 543+4 4+5 9+7 3+6 31+3 149+2 1980+54 5+49 9 15 23+4 2+14 1665+6 376 62+3 " ++
      "509+3 993+6 110+2 2+2 792502+239") },
  { names := ["lower", "lowercase"]
    categories := [.ll]
    also := rangesOf (
      "170 16 502+8 8+1 31+4 97 53 3458 3120+62 14 35+36 690 14 17+12 212+15 849+25 1939+1 " ++
      "31263+1 211 130+2 4+1 867+3 10 23575 3+2 2+41 2+8 55414+61")
    except := rangesOf "" },
  { names := ["upper", "uppercase"]
    categories := [.lu]
    also := rangesOf "8544+15 839+25 117857+25 7+25 7+25"
    except := rangesOf "" },
  { names := ["wspace", "whitespace", "space"]
    categories := [.zs, .zl, .zp]
    also := rangesOf "9+4 120"
    except := rangesOf "" },
  { names := ["ahex", "asciihexdigit"]
    categories := []
    also := rangesOf "48+9 8+5 27+5"
    except := rangesOf "" },
  { names := ["bidic", "bidicontrol"]
    categories := []
    also := rangesOf "1564 6642+1 27+4 56+3"
    except := rangesOf "" },
  { names := ["bidim", "bidimirrored"]
    categories := [.ps, .pe]
    also := rangesOf (
      "60 2 109 16 8062+1 262 193+3 4+5 4 4+1 4+3 2+3 2 2 5+8 6 2+17 6+3 10+1 2 2+7 3+30 3+3 " ++
      "6 10+1 3+18 6+1 10+4 3+1 5+23 3+15 33+1 1183 3+1 4+1 2+2 6+3 6+2 4+3 438+5 2+13 9 8+5 " ++
      "4 5+4 2+1 7 5 2+2 3+1 11+5 17+18 2+3 3 2 3 2+3 6+1 7+2 25+1 12+1 5+3 2+1 3+1 5+42 3+7 " ++
      "2+39 6 2 4+4 6+2 5 4+4 2 257 516+3 4+1 2+1 15+1 3+1 53315+1 183 2 55229 58 58 58 58")
    except := rangesOf "8218 4 3620 475+2 52511+1 216+1 29+15 3+1" },
  { names := ["ci", "caseignorable"]
    categories := [.lm, .mn, .me, .sk, .cf]
    also := rangesOf "39 7 12 125 720 472 149 6692+1 11 3 56812 63 3 178 7 12"
    except := rangesOf "" },
  { names := ["cased"]
    categories := [.lu, .ll, .lt]
    also := rangesOf (
      "170 16 502+8 8+1 31+4 97 53 3458 3120+62 14 35+36 690 14 17+12 196+31 823+51 1939+1 " ++
      "31263+1 211 130+2 4+1 867+3 10 23575 3+2 2+41 2+8 55414+61 4291+25 7+25 7+25")
    except := rangesOf "" },
  { names := ["cwcf", "changeswhencasefolded"]
    categories := [.lu, .lt]
    also := rangesOf (
      "181 42 106 54 454 125 14+1 4+1 26+1 4 402 3697+5 2179+8 530+1 229+7 9+7 9+7 11+2 3 " ++
      "11+2 3 43+2 3 361+15 839+25 34465+79 20289+6 13+4")
    except := rangesOf (
      "978+2 4044+85 3341 5 4+2 3+2 3 4+4 7 4 4+1 3+1 2 11+1 6 111291+25 27+25 27+25 27 2+1 3 " ++
      "3+1 3+3 2+7 27+25 27+1 2+3 3+7 2+6 28+1 2+3 2+4 2 4+6 28+25 27+25 27+25 27+25 27+25 " ++
      "27+25 31+24 34+24 34+24 34+24 34+24 34") },
  { names := ["cwcm", "changeswhencasemapped"]
    categories := [.lu, .ll, .lt]
    also := rangesOf "837 7707+31 823+51"
    except := rangesOf (
      "312 85 14 15+1 15 4 99 19+5 28 3 2 3+2 3 2 3 6+1 2 3+1 2+6 2+1 2 3+2 7+4 2 2+7 3+16 " ++
      "291+2 40 356 40 6008+43 64+12 3+2 2+15 2+11 258+1 2 611 5 3+9 2 4+4 7 4 4+1 2+2 2+1 5 " ++
      "3+3 6+4 2856 3 3+4 105 31308+1 64+7 22 7 26 36 2 37 822+34 2+6 6+8 75928+84 2+70 2+1 3 " ++
      "3+1 3+3 2+11 2 2+6 2+64 2+3 3+7 2+6 2+27 2+3 2+4 2 4+6 2+339 3+24 2+24 2+30 2+24 2+30 " ++
      "2+24 2+30 2+24 2+30 2+24 2+7 1845+9 2+19 7+5") },
  { names := ["cwl", "changeswhenlowercased"]
    categories := [.lu, .lt]
    also := rangesOf "8544+15 839+25"
    except := rangesOf (
      "978+2 7470 5 4+2 3+2 3 4+4 7 4 4+1 3+1 2 11+1 6 111291+25 27+25 27+25 27 2+1 3 3+1 3+3 " ++
      "2+7 27+25 27+1 2+3 3+7 2+6 28+1 2+3 2+4 2 4+6 28+25 27+25 27+25 27+25 27+25 27+25 " ++
      "31+24 34+24 34+24 34+24 34+24 34") },
  { names := ["cwt", "changeswhentitlecased"]
    categories := [.ll]
    also := rangesOf "452 3 3 39 340 7723+15 849+25"
    except := rangesOf (
      "312 85 14 15+1 15 4 99 19+5 28 3 2 3+2 3 2 3 6+1 2 3+1 2+6 2+1 2 3+2 7+4 2 2+7 3+16 " ++
      "333 356 40 2888+42 3+2 3073+43 64+12 3+2 2+15 2+11 258+1 2 619 4+1 4 28 5 5 3+1 9+3 " ++
      "2856 3 3+4 105 31308+1 64+7 22 7 26 36 2 37 822+34 2+6 6+8 75954+25 27+6 2+17 27+25 " ++
      "27+3 2 2+6 2+10 27+25 27+25 27+25 27+25 27+25 27+25 27+25 27+25 27+27 29+24 2+5 27+24 " ++
      "2+5 27+24 2+5 27+24 2+5 27+24 2+5 2 1845+9 2+19 7+5") },
  { names := ["cwu", "changeswhenuppercased"]
    categories := [.ll, .lt]
    also := rangesOf "837 7723+15 849+25"
    except := rangesOf (
      "312 85 14 15+1 15 4 99 19+5 28 3 2 3+2 3 2 3 6+1 2 3+1 2+6 2+1 2 3+2 7+4 2 2+7 3+16 " ++
      "333 356 40 6008+43 64+12 3+2 2+15 2+11 258+1 2 619 4+1 4 28 5 5 3+1 9+3 2856 3 3+4 105 " ++
      "31308+1 64+7 22 7 26 36 2 37 822+34 2+6 6+8 75954+25 27+6 2+17 27+25 27+3 2 2+6 2+10 " ++
      "27+25 27+25 27+25 27+25 27+25 27+25 27+25 27+25 27+27 29+24 2+5 27+24 2+5 27+24 2+5 " ++
      "27+24 2+5 27+24 2+5 2 1845+9 2+19 7+5") },
  { names := ["dash"]
    categories := [.pd]
    also := rangesOf "8275 40 16 391"
    except := rangesOf "" },
  { names := ["di", "defaultignorablecodepoint"]
    categories := []
    also := rangesOf (
      "173 674 717 2883+1 1620+1 86+4 2044+4 27+4 50+15 4341 52380+15 240 161 80+8 48296+3 " ++
      "5328+7 798342+4095")
    except := rangesOf "" },
  { names := ["dep", "deprecated"]
    categories := []
    also := rangesOf "329 1322 2308 2 2090+1 2246+5 698+1 908503"
    except := rangesOf "" },
  { names := ["dia", "diacritic"]
    categories := []
    also := rangesOf (
      "94 2 72 7 5 3+1 504+158 2+7 6+5 18+1 5 10+1 254+4 210 56+16 2+26 2 2+1 2 135+7 5+1 " ++
      "135+1 5+1 4+2 68+26 92+10 59+10 35+1 127+7 42+9 17+27 62 17 4+3 29 75 17 111 17 111 17 " ++
      "48+2 61 17 8 120 111 17 111 17 110+1 17 125 125+5 2 108 14+4 76+1 28 2 2 5+1 67+2 2+1 " ++
      "63 113 2+1 41+1 5+4 26+6 2 11+1 706+2 949+1 180+10 10 348+2 314+7 3 49+14 3+10 105 16 " ++
      "39+8 55+1 139+1 65+5 83+24 5 7 3+2 51+62 90+11 38+10 446 2+2 12+2 14+2 14+2 14+1 " ++
      "3313+2 318 507+5 106+3 96 30067 13+1 2 29+1 83+1 15+33 103+2 110+1 203 28+17 58+3 37 " ++
      "96 13 37 150+2 66+3 52 101+4 10+2 129+1 20273 770+15 271 2 48 46+1 68 765 1184+5 2+41 " ++
      "2+8 811+1 572+5 470+2 71+10 50+3 193 42 73+1 121+1 63 77 10+2 105+1 179+1 82 17 25+6 " ++
      "4+4 206 4 124+1 252+1 127 119+1 116 270+1 259+1 5 157 84 19 82 422 259 2+1 82 5808+14 " ++
      "13979+4 60+6 1113+16 81+1 16383+3 2+6 2+1 7938+45 3+22 545+2 4+5 9+7 3+6 31+3 3715+61 " ++
      "195+6 376 62+3 1505+6 110+2 2+2")
    except := rangesOf "" },
  { names := ["emoji"]
    categories := []
    also := rangesOf (
      "35 7 6+9 112 5 8078 13 217 23 91+5 16+1 368+1 13 167 26+10 5+2 200 232+1 11 10 59+3 " ++
      "2+4 10 3 3+1 3 5 3 2+1 3 4 4+1 9+2 6 2 6+11 12+1 3 2+1 2 19 3+1 19+5 2 2+1 4+1 6 3+1 " ++
      "5+1 12+1 6+1 3 6+1 2 2+1 21+1 6+5 2+3 3 5 3 3+5 2 3 2 2 7 4 7 11+1 16 3 5 2 5+2 2 12+1 " ++
      "49+2 10 15 15 373+1 464+2 20+1 52 5 1243 13 602 2 114027 203 161+1 13+1 15 3+9 76+25 " ++
      "2+1 24 21 3+8 22+1 175+33 3+111 3+1 2+2 3+82 3+2 2+262 2+62 12+5 2+23 8+1 3+7 13 3+3 3 " ++
      "5+1 14+1 3 9+1 10 6+2 13+2 9+2 3 2 5 7 4 7+85 49+69 6+7 3+2 5+9 4 2+1 4 3+9 228+11 5 " ++
      "284+46 2+9 2+184 113+12 4+8 8+45 2+6 9+13 5+8 8+8")
    except := rangesOf "" },
  { names := ["ecomp", "emojicomponent"]
    categories := []
    also := rangesOf "35 7 6+9 8148 214 56620 62423+25 508+4 1457+3 788077+95"
    except := rangesOf "" },
  { names := ["emod", "emojimodifier"]
    categories := []
    also := rangesOf "127995+4"
    except := rangesOf "" },
  { names := ["ebase", "emojimodifierbase"]
    categories := []
    also := rangesOf (
      "9757 220 17+3 117880 61+2 3 3+2 118+1 3+10 22+18 4 5+2 2+2 8 2 25 202+1 5 22 5+1 175+2 " ++
      "4+4 84 17+2 10 12 576 3 9+7 7 10+9 3+2 57 62+1 2+1 2 18+2 2+12 230+2 43+8")
    except := rangesOf "" },
  { names := ["epres", "emojipresentation"]
    categories := []
    also := rangesOf (
      "8986+1 206+3 4 3 522+1 22+1 51+11 44 20 14 9+1 18+1 6+1 9 6 22 8+1 2 5 3 8 5+1 29 36 2 " ++
      "5+2 2 62+2 25 15 860+1 52 5 115887 203 191 3+9 76+25 2 25 21 3+4 2+2 22+1 175+32 13+8 " ++
      "2+69 2+21 13+42 5+4 13+16 4 4+70 2 2+186 3+62 14+3 2+23 19 27+1 14 87+84 49+69 7 4+2 " ++
      "3+2 5+3 12+1 8+8 228+11 5 284+46 2+9 2+184 113+12 4+8 8+45 2+6 9+13 5+8 8+8")
    except := rangesOf "" },
  { names := ["extpict", "extendedpictographic"]
    categories := []
    also := rangesOf (
      "169 5 8078 13 217 23 91+5 16+1 368+1 13 96 71 26+10 5+2 200 232+1 11 10 59+3 2+5 2+11 " ++
      "2+113 11+117 3+10 2 2 7 4 7 11+1 16 3 5 2 5+2 2 12+4 46+2 10 15 15 373+1 464+2 20+1 52 " ++
      "5 1243 13 602 2 114023+255 14+2 32 61+5 13+1 15 3+9 19+56 28+14 11 21 3+8 2+3 10+433 " ++
      "6+317 9+265 49+127 117+11 86+42 13+3 57+7 11+5 41+7 31+81 13+46 2+9 2+440 257+1021")
    except := rangesOf "" },
  { names := ["ext", "extender"]
    categories := []
    also := rangesOf (
      "183 537+1 879 442 859 753 128 2372 57 612 399 69 5002 44+4 104+1 94+2 28439 1527 963 " ++
      "23 138 109 22+1 21628 2065+1 3035 617+2 1232 20650+1 1181+1 2 29017+1 2055+2")
    except := rangesOf "" },
  { names := ["grbase", "graphemebase"]
    categories := [.lu, .ll, .lt, .lm, .lo, .mc, .nd, .nl, .no, .pc, .pd, .ps, .pe, .pi, .pf, .po,
      .sm, .sc, .sk, .so, .zs]
    also := rangesOf ""
    except := rangesOf (
      "2494 25 359 25 103 25 235 19+1 104 25 120 16 3414 5369+1 53103+1 5023 25 345 13 242 " ++
      "897 47157 9+4") },
  { names := ["grext", "graphemeextend"]
    categories := [.mn, .me]
    also := rangesOf (
      "2494 25 359 25 103 25 235 19+1 104 25 120 16 3414 1239 4130+1 53103+1 5023 25 345 13 " ++
      "242 897 47157 9+4 798382+95")
    except := rangesOf "" },
  { names := ["hex", "hexdigit"]
    categories := []
    also := rangesOf "48+9 8+5 27+5 65194+9 8+5 27+5"
    except := rangesOf "" },
  { names := ["idsb", "idsbinaryoperator"]
    categories := []
    also := rangesOf "12272+1 3+7"
    except := rangesOf "" },
  { names := ["idst", "idstrinaryoperator"]
    categories := []
    also := rangesOf "12274+1"
    except := rangesOf "" },
  { names := ["idc", "idcontinue"]
    categories := [.lu, .ll, .lt, .lm, .lo, .mn, .mc, .nd, .nl, .pc]
    also := rangesOf "183 720 4066+8 1641 1854 22 3949+1"
    except := rangesOf "11823" },
  { names := ["ids", "idstart"]
    categories := [.lu, .ll, .lt, .lm, .lo, .nl]
    also := rangesOf "6277+1 2194 22 3949+1"
    except := rangesOf "11823" },
  { names := ["ideo", "ideographic"]
    categories := []
    also := rangesOf (
      "12294+1 26+8 15+2 966+6591 65+20991 22785+365 3+105 29963 28+6135 9+1237 43+8 9320+395 " ++
      "19717+42719 33+4153 7+221 3+5761 15+7472 3104+541 1507+4938 6+4191")
    except := rangesOf "" },
  { names := ["joinc", "joincontrol"]
    categories := []
    also := rangesOf "8204+1"
    except := rangesOf "" },
  { names := ["loe", "logicalorderexception"]
    categories := []
    also := rangesOf "3648+4 124+4 2801+2 3 37115+1 3 2+1"
    except := rangesOf "" },
  { names := ["math"]
    categories := [.sm]
    also := rangesOf (
      "94 882+2 3 27+1 3+1 7201 28+2 12 33+3 25+1 15+1 66+12 5 4+1 5+4 19 5 3+9 2 4+4 7 4+1 " ++
      "3+1 2+2 2+5 4+3 6+4 76+4 3+3 2+1 2+1 2 2+4 3+1 5+1 5+17 3+1 2 2+6 2 7+1 291+3 169+1 2 " ++
      "25 18 446+1 13+8 6+4 6+1 3+1 4+4 15 2 3+5 25+1 58 2 30+3 10+1 343+1 32+9 404+21 64+3 " ++
      "33+1 54372 2 5 212 2 54466+84 2+70 2+1 3 3+1 3+3 2+11 2 2+6 2+64 2+3 3+7 2+6 2+27 2+3 " ++
      "2+4 2 4+6 2+339 3+24 2+24 2+30 2+24 2+30 2+24 2+30 2+24 2+30 2+24 2+7 3+49 5633+3 2+26 " ++
      "2+1 2 3 2+9 2+3 2 2 7 5 2 2 2+2 2+1 2 3 2 2 2 2 2+1 2 3+3 2+6 2+3 2+3 2 2+9 2+16 6+2 " ++
      "2+4 2+16")
    except := rangesOf "" },
  { names := ["nchar", "noncharactercodepoint"]
    categories := []
    also := rangesOf (
      "64976+31 527+1 65535+1 65535+1 65535+1 65535+1 65535+1 65535+1 65535+1 65535+1 65535+1 " ++
      "65535+1 65535+1 65535+1 65535+1 65535+1 65535+1 65535+1")
    except := rangesOf "" },
  { names := ["patsyn", "patternsyntax"]
    categories := []
    also := rangesOf (
      "33+14 11+6 27+3 2 27+3 35+6 2 2+1 2 2+1 5 5 4 24 32 7961+23 9+14 3+18 2+9 306+719 " ++
      "161+629 31+1131 513+127 386+2 5+24 16 52494+1 262+1")
    except := rangesOf "" },
  { names := ["patws", "patternwhitespace"]
    categories := []
    also := rangesOf "9+4 19 101 8073+1 25+1"
    except := rangesOf "" },
  { names := ["pcm", "prependedconcatenationmark"]
    categories := []
    also := rangesOf "1536+5 216 50 385+1 81 67547 16"
    except := rangesOf "" },
  { names := ["qmark", "quotationmark"]
    categories := []
    also := rangesOf "34 5 132 16 8029+7 26+1 3592 458+3 14+2 52770+3 190 5 91+1"
    except := rangesOf "" },
  { names := ["radical"]
    categories := []
    also := rangesOf "11904+25 2+88 13+213"
    except := rangesOf "" },
  { names := ["ri", "regionalindicator"]
    categories := []
    also := rangesOf "127462+25"
    except := rangesOf "" },
  { names := ["sterm", "sentenceterminal"]
    categories := []
    also := rangesOf (
      "33 13 17 1354 148+2 181 44+2 247 62 2 4+1 294+1 1765+1 791 5+1 774 199+1 205 6 315+1 " ++
      "355+3 175+1 3+1 30+1 189+1 66+1 957+1 10+2 3557 14 23+1 430 29949 271+1 228 4 383+1 " ++
      "87+1 96 153+1 148+2 145+1 250 21095 4+1 170 13 17 66 2805+1 1278+4 45+3 190+1 118+3 " ++
      "128+2 130+1 7 17+1 89+1 2+1 109 418+1 374+1 6+14 106+1 250+2 518 2 252+1 88+1 421+1 " ++
      "693+1 75+1 19242+1 134 66+1 12 852 19975 7657")
    except := rangesOf "" },
  { names := ["sd", "softdotted"]
    categories := []
    also := rangesOf (
      "105+1 197 282 31 53 21 321 99 2 6410 52 14 4 133 158 422 215+1 2867 108454+1 51+1 51+1 " ++
      "51+1 51+1 51+1 51+1 51+1 51+1 51+1 51+1 51+1 51+1 2183 306+1 27")
    except := rangesOf "" },
  { names := ["term", "terminalpunctuation"]
    categories := []
    also := rangesOf (
      "33 11 2 12+1 4 831 9 514 58 73 15 2+2 181 44+10 2 236+1 55+14 32 262+1 1269+1 173 5+5 " ++
      "312+1 790+7 774 125+2 72+1 158+2 4 40+3 3+1 315+1 355+3 175+1 2+2 30+1 189+4 63+1 " ++
      "957+1 10+2 3557 14 5 11 2+1 4+1 429+1 29948+1 270+2 228+4 383+1 87+1 96 152+2 148+2 " ++
      "128 17+1 250 21093+2 2+3 170 11 2 12+1 4 66 3 1083 49 1159 200 311+1 153+5 69+5 90+3 " ++
      "953+4 45+3 190+6 113+3 128+2 130+1 7 17+1 89+4 109 418+2 13+1 359+3 4+14 106+1 250+2 " ++
      "518 2 252+1 88+1 5+1 415+2 46 646+1 75+1 1324+4 17914+1 134 66+2 11 851+1 19975 7656+3")
    except := rangesOf "" },
  { names := ["uideo", "unifiedideograph"]
    categories := []
    also := rangesOf (
      "13312+6591 65+20991 23055+1 2 2+1 11 2 2+1 3+2 67031+42719 33+4153 7+221 3+5761 " ++
      "15+7472 5152+4938 6+4191")
    except := rangesOf "" },
  { names := ["vs", "variationselector"]
    categories := []
    also := rangesOf "6155+2 2 58865+15 852721+239"
    except := rangesOf "" },
  { names := ["xidc", "xidcontinue"]
    categories := [.lu, .ll, .lt, .lm, .lo, .mn, .mc, .nd, .nl, .pc]
    also := rangesOf "183 720 4066+8 1641 1854 22"
    except := rangesOf "890 10933 52783+5 407+1 117 2 2 2 2 2 2 2" },
  { names := ["xids", "xidstart"]
    categories := [.lu, .ll, .lt, .lm, .lo, .nl]
    also := rangesOf "6277+1 2194 22"
    except := rangesOf "890 2745 128 8060 52783+5 407+1 117 2 2 2 2 2 2 2 288+1" }]

/-- The property of a name, given in lower case and without separators. -/
def property? (name : String) : Option Property := properties.find? (·.names.contains name)

end MetaQuery.Text
