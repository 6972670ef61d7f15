/-
  MetaQuery/Text/Script.lean
  ==========================
  The script of a character, as the Unicode character database gives it.
-/
import MetaQuery.Text.Category
import MetaQuery.Text.Ranges

namespace MetaQuery.Text

/-- A script by its names, in lower case and without separators, and its characters. -/
structure Script where
  names : List String
  ranges : List (Nat × Nat)
deriving DecidableEq, Repr

def scripts : List Script := [
  ⟨["adlm", "adlam"],
    rangesOf "125184+75 5+9 5+1"⟩,
  ⟨["ahom"],
    rangesOf "71424+26 3+14 5+22"⟩,
  ⟨["hluw", "anatolianhieroglyphs"],
    rangesOf "82944+582"⟩,
  ⟨["arab", "arabic"],
    rangesOf ("1536+4 2+5 2+13 2+2 2+31 2+9 12+25 2+107 2+33 81+47 241+30 2+1 7+73 2+28 " ++
    "62033+114 17+362 3+79 3+53 8 33+15 113+4 2+134 3940+30 127+2 57089+3 2+26 2+1 2 " ++
    "3 2+9 2+3 2 2 7 5 2 2 2+2 2+1 2 3 2 2 2 2 2+1 2 3+3 2+6 2+3 2+3 2 2+9 2+16 6+2 " ++
    "2+4 2+16 53+1")⟩,
  ⟨["armn", "armenian"],
    rangesOf "1329+37 3+49 3+2 62852+4"⟩,
  ⟨["avst", "avestan"],
    rangesOf "68352+53 4+6"⟩,
  ⟨["bali", "balinese"],
    rangesOf "6912+76 4+46"⟩,
  ⟨["bamu", "bamum"],
    rangesOf "42656+87 49417+568"⟩,
  ⟨["bass", "bassavah"],
    rangesOf "92880+29 3+5"⟩,
  ⟨["batk", "batak"],
    rangesOf "7104+51 9+3"⟩,
  ⟨["beng", "bengali"],
    rangesOf "2432+3 2+7 3+1 3+21 2+6 2 4+3 3+8 3+1 3+3 9 5+1 2+4 3+24"⟩,
  ⟨["bhks", "bhaiksuki"],
    rangesOf "72704+8 2+44 2+13 11+28"⟩,
  ⟨["bopo", "bopomofo"],
    rangesOf "746+1 11802+42 113+31"⟩,
  ⟨["brah", "brahmi"],
    rangesOf "69632+77 5+35 10"⟩,
  ⟨["brai", "braille"],
    rangesOf "10240+255"⟩,
  ⟨["bugi", "buginese"],
    rangesOf "6656+27 3+1"⟩,
  ⟨["buhd", "buhid"],
    rangesOf "5952+19"⟩,
  ⟨["cans", "canadianaboriginal"],
    rangesOf "5120+639 561+69 65979+15"⟩,
  ⟨["cari", "carian"],
    rangesOf "66208+48"⟩,
  ⟨["aghb", "caucasianalbanian"],
    rangesOf "66864+51 12"⟩,
  ⟨["cakm", "chakma"],
    rangesOf "69888+52 2+17"⟩,
  ⟨["cham"],
    rangesOf "43520+54 10+13 3+9 3+3"⟩,
  ⟨["cher", "cherokee"],
    rangesOf "5024+85 3+5 38771+79"⟩,
  ⟨["chrs", "chorasmian"],
    rangesOf "69552+27"⟩,
  ⟨["zyyy", "common"],
    rangesOf ("0+64 27+5 27+46 2+14 2+4 24 32 450+38 6+4 3+19 117 10 7 2 638 7 15 4 33 157 517 " ++
    "130+1 1242 406+3 291 1520+2 72+1 204+1 2 1230 14 8+3 2+5 2+2 3 774+11 3+86 2+10 " ++
    "4+10 2+14 18+32 64+37 2+2 3+5 2+26 2+16 42+2 5+662 26+10 22+927 257+627 3+31 " ++
    "2+104 513+93 403+11 5+4 2 2+24 16+7 5+3 92+1 4 91+1 148+15 33+35 61+63 32+80 48 " ++
    "89+167 6593+63 22785+33 103+2 166+9 245 161 396 15+1 20947+1 209+9 23+34 2+18 " ++
    "2+3 148 2+31 27+5 27+10 11 46+1 65+6 2+6 11+4 259+2 5+44 4+8 81+12 52+44 229+26 " ++
    "47525+3 4781+115 61+245 11+38 3+61 4+16 9+1 8+29 5+60 214+19 13+19 13+86 10+24 " ++
    "136+84 2+70 2+1 3 3+1 3+3 2+11 2 2+6 2+64 2+3 3+7 2+6 2+27 2+3 2+4 2 4+6 2+339 " ++
    "3+291 3+49 5234+67 77+60 707+43 5+99 13+14 3+14 2+14 2+36 11+173 57+25 2+1 14+43 " ++
    "5+8 8+1 15+5 155+983 5+16 4+12 4+118 5+94 7+11 5 16+11 5+55 9+9 7+39 9+29 3+1 " ++
    "79+339 13+13 3+12 4+8 8+45 2+6 9+13 5+8 8+8 8+146 2+54 38+9 787464 31+95")⟩,
  ⟨["copt", "coptic", "qaac"],
    rangesOf "994+13 10385+115 6+6"⟩,
  ⟨["xsux", "cuneiform"],
    rangesOf "73728+921 103+110 2+4 12+195"⟩,
  ⟨["cprt", "cypriot"],
    rangesOf "67584+5 3 2+43 2+1 4 3"⟩,
  ⟨["cpmn", "cyprominoan"],
    rangesOf "77712+98"⟩,
  ⟨["cyrl", "cyrillic"],
    rangesOf "1024+132 3+168 5969+8 163 77 4200+31 30785+95 22415+1 57857+61 34"⟩,
  ⟨["dsrt", "deseret"],
    rangesOf "66560+79"⟩,
  ⟨["deva", "devanagari"],
    rangesOf "2304+80 5+14 3+25 40801+31 29185+9"⟩,
  ⟨["diak", "divesakuru"],
    rangesOf "71936+6 3 3+7 2+1 2+29 2+1 3+11 10+9"⟩,
  ⟨["dogr", "dogra"],
    rangesOf "71680+59"⟩,
  ⟨["dupl", "duployan"],
    rangesOf "113664+106 6+12 4+8 8+9 3+3"⟩,
  ⟨["egyp", "egyptianhieroglyphs"],
    rangesOf "77824+1109"⟩,
  ⟨["elba", "elbasan"],
    rangesOf "66816+39"⟩,
  ⟨["elym", "elymaic"],
    rangesOf "69600+22"⟩,
  ⟨["ethi", "ethiopic"],
    rangesOf ("4608+72 2+3 3+6 2 2+3 3+40 2+3 3+32 2+3 3+6 2 2+3 3+14 2+56 2+3 3+66 3+31 4+25 " ++
    "6631+22 10+6 2+6 2+6 2+6 2+6 2+6 2+6 2+6 32035+5 3+5 3+5 10+6 2+6 81074+6 2+3 " ++
    "2+1 2+14")⟩,
  ⟨["geor", "georgian"],
    rangesOf "4256+37 2 6 3+42 2+3 2961+42 3+2 4161+37 2 6"⟩,
  ⟨["glag", "glagolitic"],
    rangesOf "11264+95 111521+6 2+16 3+6 2+1 2+4"⟩,
  ⟨["goth", "gothic"],
    rangesOf "66352+26"⟩,
  ⟨["gran", "grantha"],
    rangesOf "70400+3 2+7 3+1 3+21 2+6 2+1 2+4 3+8 3+1 3+2 3 7 6+6 3+6 4+4"⟩,
  ⟨["grek", "greek"],
    rangesOf ("880+3 2+2 3+3 2 5 2 2+2 2 2+19 2+62 15+15 6439+4 51+4 5+4 85 321+21 3+5 3+37 3+5 " ++
    "3+7 2 2 2 2+30 3+52 2+14 2+13 3+5 2+18 3+2 2+8 296 35391 21979+78 18 53344+69")⟩,
  ⟨["gujr", "gujarati"],
    rangesOf "2689+2 2+8 2+2 2+21 2+6 2+1 2+4 3+9 2+2 2+2 3 16+3 3+11 8+6"⟩,
  ⟨["gong", "gunjalagondi"],
    rangesOf "73056+5 2+1 2+36 2+1 2+5 8+9"⟩,
  ⟨["guru", "gurmukhi"],
    rangesOf "2561+2 2+5 5+1 3+21 2+6 2+1 2+1 2+1 3 2+4 5+1 3+2 4 8+3 2 8+16"⟩,
  ⟨["hani", "han"],
    rangesOf ("11904+25 2+88 13+213 48 2 26+8 15+3 965+6591 65+20991 22785+365 3+105 29961+1 " ++
    "13+1 36879+42719 33+4153 7+221 3+5761 15+7472 3104+541 1507+4938 6+4191")⟩,
  ⟨["hang", "hangul"],
    rangesOf ("4352+255 7727+1 258+93 114+30 66+30 30434+28 644+11171 13+22 5+48 10149+30 4+5 " ++
    "3+5 3+5 3+2")⟩,
  ⟨["rohg", "hanifirohingya"],
    rangesOf "68864+39 9+9"⟩,
  ⟨["hano", "hanunoo"],
    rangesOf "5920+20"⟩,
  ⟨["hatr", "hatran"],
    rangesOf "67808+18 2+1 6+4"⟩,
  ⟨["hebr", "hebrew"],
    rangesOf "1425+54 9+26 5+5 62761+25 2+4 2 2+1 2+1 2+9"⟩,
  ⟨["hira", "hiragana"],
    rangesOf "12353+85 7+2 98146+286 19 30+2 16558"⟩,
  ⟨["armi", "imperialaramaic"],
    rangesOf "67648+21 2+8"⟩,
  ⟨["zinh", "inherited", "qaai"],
    rangesOf ("768+111 278+1 453+10 27 737+3 4444+30 514+2 2+12 2+6 5 7 4+1 199+63 525+1 195+32 " ++
    "3898+3 108+1 52582+15 17+13 976 227 4187 48069+45 3+22 545+2 18+7 3+6 31+3 " ++
    "798547+239")⟩,
  ⟨["phli", "inscriptionalpahlavi"],
    rangesOf "68448+18 6+7"⟩,
  ⟨["prti", "inscriptionalparthian"],
    rangesOf "68416+21 3+7"⟩,
  ⟨["java", "javanese"],
    rangesOf "43392+77 3+9 5+1"⟩,
  ⟨["kthi", "kaithi"],
    rangesOf "69760+66 11"⟩,
  ⟨["knda", "kannada"],
    rangesOf "3200+12 2+2 2+22 2+9 2+4 3+8 2+2 2+3 8+1 7+1 2+3 3+9 2+2"⟩,
  ⟨["kana", "katakana"],
    rangesOf "12449+89 3+2 241+15 209+46 2+87 52239+9 2+44 45139+3 2+6 2+1 2 288+2 51 15+3"⟩,
  ⟨["kawi"],
    rangesOf "73472+16 2+40 4+27"⟩,
  ⟨["kali", "kayahli"],
    rangesOf "43264+45 2"⟩,
  ⟨["khar", "kharoshthi"],
    rangesOf "68096+3 2+1 6+7 2+2 2+28 3+2 5+9 8+8"⟩,
  ⟨["kits", "khitansmallscript"],
    rangesOf "94180 6940+469"⟩,
  ⟨["khmr", "khmer"],
    rangesOf "6016+93 3+9 7+9 487+31"⟩,
  ⟨["khoj", "khojki"],
    rangesOf "70144+17 2+46"⟩,
  ⟨["sind", "khudawadi"],
    rangesOf "70320+58 6+9"⟩,
  ⟨["laoo", "lao"],
    rangesOf "3713+1 2 2+4 2+23 2 2+22 3+4 2 2+6 2+9 3+3"⟩,
  ⟨["latn", "latin"],
    rangesOf ("65+25 7+25 48 16 6+22 2+30 2+448 40+4 6684+37 7+48 6+3 6+12 2+69 66+255 370 14 " ++
    "17+12 142+1 7 28 18+40 2776+31 31395+101 4+63 6+1 2 2+4 25+13 817+42 2+8 2+3 " ++
    "20375+6 1051+25 7+25 2086+5 2+41 2+8 55110+30 7+5")⟩,
  ⟨["lepc", "lepcha"],
    rangesOf "7168+55 4+14 4+2"⟩,
  ⟨["limb", "limbu"],
    rangesOf "6400+30 2+11 5+11 5 4+11"⟩,
  ⟨["lina", "lineara"],
    rangesOf "67072+310 10+21 11+7"⟩,
  ⟨["linb", "linearb"],
    rangesOf "65536+11 2+25 2+18 2+1 2+14 3+13 35+122"⟩,
  ⟨["lisu"],
    rangesOf "42192+47 31409"⟩,
  ⟨["lyci", "lycian"],
    rangesOf "66176+28"⟩,
  ⟨["lydi", "lydian"],
    rangesOf "67872+25 6"⟩,
  ⟨["mahj", "mahajani"],
    rangesOf "69968+38"⟩,
  ⟨["maka", "makasar"],
    rangesOf "73440+24"⟩,
  ⟨["mlym", "malayalam"],
    rangesOf "3328+12 2+2 2+50 2+2 2+5 5+15 3+25"⟩,
  ⟨["mand", "mandaic"],
    rangesOf "2112+27 3"⟩,
  ⟨["mani", "manichaean"],
    rangesOf "68288+38 5+11"⟩,
  ⟨["marc", "marchen"],
    rangesOf "72816+31 3+21 2+13"⟩,
  ⟨["gonm", "masaramgondi"],
    rangesOf "72960+6 2+1 2+43 4 2+1 2+8 9+9"⟩,
  ⟨["medf", "medefaidrin"],
    rangesOf "93760+90"⟩,
  ⟨["mtei", "meeteimayek"],
    rangesOf "43744+22 202+45 3+9"⟩,
  ⟨["mend", "mendekikakui"],
    rangesOf "124928+196 3+15"⟩,
  ⟨["merc", "meroiticcursive"],
    rangesOf "68000+23 5+19 3+45"⟩,
  ⟨["mero", "meroitichieroglyphs"],
    rangesOf "67968+31"⟩,
  ⟨["plrd", "miao"],
    rangesOf "93952+74 5+56 8+16"⟩,
  ⟨["modi"],
    rangesOf "71168+68 12+9"⟩,
  ⟨["mong", "mongolian"],
    rangesOf "6144+1 3 2+19 7+88 8+42 64950+12"⟩,
  ⟨["mroo", "mro"],
    rangesOf "92736+30 2+9 5+1"⟩,
  ⟨["mult", "multani"],
    rangesOf "70272+6 2 2+3 2+14 2+10"⟩,
  ⟨["mymr", "myanmar"],
    rangesOf "4096+159 39233+30 98+31"⟩,
  ⟨["nbat", "nabataean"],
    rangesOf "67712+30 9+8"⟩,
  ⟨["nagm", "nagmundari"],
    rangesOf "124112+41"⟩,
  ⟨["nand", "nandinagari"],
    rangesOf "72096+7 3+45 3+10"⟩,
  ⟨["talu", "newtailue"],
    rangesOf "6528+43 5+25 7+10 4+1"⟩,
  ⟨["newa"],
    rangesOf "70656+91 2+4"⟩,
  ⟨["nkoo", "nko"],
    rangesOf "1984+58 3+2"⟩,
  ⟨["nshu", "nushu"],
    rangesOf "94177 16783+395"⟩,
  ⟨["hmnp", "nyiakengpuachuehmong"],
    rangesOf "123136+44 4+13 3+9 5+1"⟩,
  ⟨["ogam", "ogham"],
    rangesOf "5760+28"⟩,
  ⟨["olck", "olchiki"],
    rangesOf "7248+47"⟩,
  ⟨["hung", "oldhungarian"],
    rangesOf "68736+50 14+50 8+5"⟩,
  ⟨["ital", "olditalic"],
    rangesOf "66304+35 10+2"⟩,
  ⟨["narb", "oldnortharabian"],
    rangesOf "68224+31"⟩,
  ⟨["perm", "oldpermic"],
    rangesOf "66384+42"⟩,
  ⟨["xpeo", "oldpersian"],
    rangesOf "66464+35 5+13"⟩,
  ⟨["sogo", "oldsogdian"],
    rangesOf "69376+39"⟩,
  ⟨["sarb", "oldsoutharabian"],
    rangesOf "68192+31"⟩,
  ⟨["orkh", "oldturkic"],
    rangesOf "68608+72"⟩,
  ⟨["ougr", "olduyghur"],
    rangesOf "69488+25"⟩,
  ⟨["orya", "oriya"],
    rangesOf "2817+2 2+7 3+1 3+21 2+6 2+1 2+4 3+8 3+1 3+2 8+2 5+1 2+4 3+17"⟩,
  ⟨["osge", "osage"],
    rangesOf "66736+35 5+35"⟩,
  ⟨["osma", "osmanya"],
    rangesOf "66688+29 3+9"⟩,
  ⟨["hmng", "pahawhhmong"],
    rangesOf "92928+69 11+9 2+6 2+20 6+18"⟩,
  ⟨["palm", "palmyrene"],
    rangesOf "67680+31"⟩,
  ⟨["pauc", "paucinhau"],
    rangesOf "72384+56"⟩,
  ⟨["phag", "phagspa"],
    rangesOf "43072+55"⟩,
  ⟨["phnx", "phoenician"],
    rangesOf "67840+27 4"⟩,
  ⟨["phlp", "psalterpahlavi"],
    rangesOf "68480+17 8+3 13+6"⟩,
  ⟨["rjng", "rejang"],
    rangesOf "43312+35 12"⟩,
  ⟨["runr", "runic"],
    rangesOf "5792+74 4+10"⟩,
  ⟨["samr", "samaritan"],
    rangesOf "2048+45 3+14"⟩,
  ⟨["saur", "saurashtra"],
    rangesOf "43136+69 9+11"⟩,
  ⟨["shrd", "sharada"],
    rangesOf "70016+95"⟩,
  ⟨["shaw", "shavian"],
    rangesOf "66640+47"⟩,
  ⟨["sidd", "siddham"],
    rangesOf "71040+53 3+37"⟩,
  ⟨["sgnw", "signwriting"],
    rangesOf "120832+651 16+4 2+14"⟩,
  ⟨["sinh", "sinhala"],
    rangesOf "3457+2 2+17 4+23 2+8 2 3+6 4 5+5 2 2+7 7+9 3+2 66541+19"⟩,
  ⟨["sogd", "sogdian"],
    rangesOf "69424+41"⟩,
  ⟨["sora", "sorasompeng"],
    rangesOf "69840+24 8+9"⟩,
  ⟨["soyo", "soyombo"],
    rangesOf "72272+82"⟩,
  ⟨["sund", "sundanese"],
    rangesOf "7040+63 257+7"⟩,
  ⟨["sylo", "sylotinagri"],
    rangesOf "43008+44"⟩,
  ⟨["syrc", "syriac"],
    rangesOf "1792+13 2+59 3+2 273+10"⟩,
  ⟨["tglg", "tagalog"],
    rangesOf "5888+21 10"⟩,
  ⟨["tagb", "tagbanwa"],
    rangesOf "5984+12 2+2 2+1"⟩,
  ⟨["tale", "taile"],
    rangesOf "6480+29 3+4"⟩,
  ⟨["lana", "taitham"],
    rangesOf "6688+62 2+28 3+10 7+9 7+13"⟩,
  ⟨["tavt", "taiviet"],
    rangesOf "43648+66 25+4"⟩,
  ⟨["takr", "takri"],
    rangesOf "71296+57 7+9"⟩,
  ⟨["taml", "tamil"],
    rangesOf "2946+1 2+5 4+2 2+3 4+1 2 2+1 4+1 4+2 4+11 5+4 4+2 2+3 3 7 15+20 70598+49 14"⟩,
  ⟨["tnsa", "tangsa"],
    rangesOf "92784+78 2+9"⟩,
  ⟨["tang", "tangut"],
    rangesOf "94176 32+6135 9+767 513+8"⟩,
  ⟨["telu", "telugu"],
    rangesOf "3072+12 2+2 2+22 2+15 3+8 2+2 2+3 8+1 2+2 3 3+3 3+9 8+8"⟩,
  ⟨["thaa", "thaana"],
    rangesOf "1920+49"⟩,
  ⟨["thai"],
    rangesOf "3585+57 6+27"⟩,
  ⟨["tibt", "tibetan"],
    rangesOf "3840+71 2+35 5+38 2+35 2+14 2+6 5+1"⟩,
  ⟨["tfng", "tifinagh"],
    rangesOf "11568+55 8+1 15"⟩,
  ⟨["tirh", "tirhuta"],
    rangesOf "70784+71 9+9"⟩,
  ⟨["toto"],
    rangesOf "123536+30"⟩,
  ⟨["ugar", "ugaritic"],
    rangesOf "66432+29 2"⟩,
  ⟨["vaii", "vai"],
    rangesOf "42240+299"⟩,
  ⟨["vith", "vithkuqi"],
    rangesOf "66928+10 2+14 2+6 2+1 2+10 2+14 2+6 2+1"⟩,
  ⟨["wcho", "wancho"],
    rangesOf "123584+57 6"⟩,
  ⟨["wara", "warangciti"],
    rangesOf "71840+82 13"⟩,
  ⟨["yezi", "yezidi"],
    rangesOf "69248+41 2+2 3+1"⟩,
  ⟨["yiii", "yi"],
    rangesOf "40960+1164 4+54"⟩,
  ⟨["zanb", "zanabazarsquare"],
    rangesOf "72192+71"⟩]

/-- The script of a name, given in lower case and without separators. -/
def script? (name : String) : Option Script := scripts.find? (·.names.contains name)

end MetaQuery.Text
