import LedgerSearch.Host.Composition

/-
  How the characters of a host name are spelled: some are in no name, some count for nothing, some
  stand for others. Letters are lower case, and full stops of every kind are full stops.
-/

namespace LedgerSearch.Host

/-- The characters outside ASCII that are in no name. -/
def disallowed : List CodeRange := CodeRange.all [
    "80-a0 a8 af b4 b8 2d8-2dd 378-37a 380-385 38b 38d 3a2 530 557-558 58b-58c 590 5c8-5cf",
    "5eb-5ee 5f5-605 61c 6dd 70e-70f 74b-74c 7b2-7bf 7fb-7fc 82e-82f 83f 85c-85d 85f 86b-86f",
    "890-896 8e2 984 98d-98e 991-992 9a9 9b1 9b3-9b5 9ba-9bb 9c5-9c6 9c9-9ca 9cf-9d6 9d8-9db 9de",
    "9e4-9e5 9ff-a00 a04 a0b-a0e a11-a12 a29 a31 a34 a37 a3a-a3b a3d a43-a46 a49-a4a a4e-a50",
    "a52-a58 a5d a5f-a65 a77-a80 a84 a8e a92 aa9 ab1 ab4 aba-abb ac6 aca ace-acf ad1-adf ae4-ae5",
    "af2-af8 b00 b04 b0d-b0e b11-b12 b29 b31 b34 b3a-b3b b45-b46 b49-b4a b4e-b54 b58-b5b b5e",
    "b64-b65 b78-b81 b84 b8b-b8d b91 b96-b98 b9b b9d ba0-ba2 ba5-ba7 bab-bad bba-bbd bc3-bc5 bc9",
    "bce-bcf bd1-bd6 bd8-be5 bfb-bff c0d c11 c29 c3a-c3b c45 c49 c4e-c54 c57 c5b c5e-c5f c64-c65",
    "c70-c76 c8d c91 ca9 cb4 cba-cbb cc5 cc9 cce-cd4 cd7-cdb cdf ce4-ce5 cf0 cf4-cff d0d d11 d45",
    "d49 d50-d53 d64-d65 d80 d84 d97-d99 db2 dbc dbe-dbf dc7-dc9 dcb-dce dd5 dd7 de0-de5 df0-df1",
    "df5-e00 e3b-e3e e5c-e80 e83 e85 e8b ea4 ea6 ebe-ebf ec5 ec7 ecf eda-edb ee0-eff f48 f6d-f70",
    "f98 fbd fcd fdb-fff 10c6 10c8-10cc 10ce-10cf 1249 124e-124f 1257 1259 125e-125f 1289",
    "128e-128f 12b1 12b6-12b7 12bf 12c1 12c6-12c7 12d7 1311 1316-1317 135b-135c 137d-137f",
    "139a-139f 13f6-13f7 13fe-13ff 1680 169d-169f 16f9-16ff 1716-171e 1737-173f 1754-175f 176d",
    "1771 1774-177f 17de-17df 17ea-17ef 17fa-17ff 181a-181f 1879-187f 18ab-18af 18f6-18ff 191f",
    "192c-192f 193c-193f 1941-1943 196e-196f 1975-197f 19ac-19af 19ca-19cf 19db-19dd 1a1c-1a1d",
    "1a5f 1a7d-1a7e 1a8a-1a8f 1a9a-1a9f 1aae-1aaf 1ade-1adf 1aec-1aff 1b4d 1bf4-1bfb 1c38-1c3a",
    "1c4a-1c4c 1c8b-1c8f 1cbb-1cbc 1cc8-1ccf 1cfb-1cff 1f16-1f17 1f1e-1f1f 1f46-1f47 1f4e-1f4f",
    "1f58-1f5e/2 1f7e-1f7f 1fb5 1fbd 1fbf-1fc1 1fc5 1fcd-1fcf 1fd4-1fd5 1fdc-1fdf 1fed-1fee",
    "1ff0-1ff1 1ff5 1ffd-200a 200e-200f 2017 2024-2026 2028-202f 203e 2047-2049 205f 2065-2069",
    "2072-2073 208f 209d-209f 20c2-20cf 20f1-2101 2105-2106 218c-218f 242a-243f 244b-245f",
    "2488-249b 2a74 2b74-2b75 2cf4-2cf8 2d26 2d28-2d2c 2d2e-2d2f 2d68-2d6e 2d71-2d7e 2d97-2d9f",
    "2da7 2daf 2db7 2dbf 2dc7 2dcf 2dd7 2ddf 2e5e-2e7f 2e9a 2ef4-2eff 2fd6-3000 3040 3097-3098",
    "309b-309c 3100-3104 3130 318f 31e6-31ef 321f 33c2 33c7 33d8 a48d-a48f a4c7-a4cf a62c-a63f",
    "a6f8-a6ff a7dd-a7f0 a82d-a82f a83a-a83f a878-a87f a8c6-a8cd a8da-a8df a954-a95e a97d-a97f",
    "a9ce a9da-a9dd a9ff aa37-aa3f aa4e-aa4f aa5a-aa5b aac3-aada aaf7-ab00 ab07-ab08 ab0f-ab10",
    "ab17-ab1f ab27 ab2f ab6c-ab6f abee-abef abfa-abff d7a4-d7af d7c7-d7ca d7fc-f8ff fa6e-fa6f",
    "fada-faff fb07-fb12 fb18-fb1c fb37 fb3d fb3f fb42 fb45 fc5e-fc63 fdd0-fdef fdfa-fdfb",
    "fe12-fe13 fe16 fe19-fe1f fe30 fe47-fe4c fe52-fe53 fe55-fe56 fe5f fe64-fe65 fe67-fe68",
    "fe6a-fe70 fe72 fe74-fe76 fe78-fe7e/2 fefd-fefe ff00 ff03 ff05 ff0f ff1a ff1c ff1e-ff20",
    "ff3b-ff3e ff5c ffbf-ffc1 ffc8-ffc9 ffd0-ffd1 ffd8-ffd9 ffdd-ffdf ffe3 ffe7 ffef-ffff 1000c",
    "10027 1003b 1003e 1004e-1004f 1005e-1007f 100fb-100ff 10103-10106 10134-10136 1018f",
    "1019d-1019f 101a1-101cf 101fe-1027f 1029d-1029f 102d1-102df 102fc-102ff 10324-1032c",
    "1034b-1034f 1037b-1037f 1039e 103c4-103c7 103d6-103ff 1049e-1049f 104aa-104af 104d4-104d7",
    "104fc-104ff 10528-1052f 10564-1056e 1057b 1058b 10593 10596 105a2 105b2 105ba 105bd-105bf",
    "105f4-105ff 10737-1073f 10756-1075f 10768-1077f 10786 107b1 107bb-107ff 10806-10807 10809",
    "10836 10839-1083b 1083d-1083e 10856 1089f-108a6 108b0-108df 108f3 108f6-108fa 1091c-1091e",
    "1093a-1093e 1095a-1097f 109b8-109bb 109d0-109d1 10a04 10a07-10a0b 10a14 10a18 10a36-10a37",
    "10a3b-10a3e 10a49-10a4f 10a59-10a5f 10aa0-10abf 10ae7-10aea 10af7-10aff 10b36-10b38",
    "10b56-10b57 10b73-10b77 10b92-10b98 10b9d-10ba8 10bb0-10bff 10c49-10c7f 10cb3-10cbf",
    "10cf3-10cf9 10d28-10d2f 10d3a-10d3f 10d66-10d68 10d86-10d8d 10d90-10e5f 10e7f 10eaa",
    "10eae-10eaf 10eb2-10ec1 10ec8-10ecf 10ed9-10ef9 10f28-10f2f 10f5a-10f6f 10f8a-10faf",
    "10fcc-10fdf 10ff7-10fff 1104e-11051 11076-1107e 110bd 110c3-110cf 110e9-110ef 110fa-110ff",
    "11135 11148-1114f 11177-1117f 111e0 111f5-111ff 11212 11242-1127f 11287 11289 1128e 1129e",
    "112aa-112af 112eb-112ef 112fa-112ff 11304 1130d-1130e 11311-11312 11329 11331 11334 1133a",
    "11345-11346 11349-1134a 1134e-1134f 11351-11356 11358-1135c 11364-11365 1136d-1136f",
    "11375-1137f 1138a 1138c-1138d 1138f 113b6 113c1 113c3-113c4 113c6 113cb 113d6 113d9-113e0",
    "113e3-113ff 1145c 11462-1147f 114c8-114cf 114da-1157f 115b6-115b7 115de-115ff 11645-1164f",
    "1165a-1165f 1166d-1167f 116ba-116bf 116ca-116cf 116e4-116ff 1171b-1171c 1172c-1172f",
    "11747-117ff 1183c-1189f 118f3-118fe 11907-11908 1190a-1190b 11914 11917 11936 11939-1193a",
    "11947-1194f 1195a-1199f 119a8-119a9 119d8-119d9 119e5-119ff 11a48-11a4f 11aa3-11aaf",
    "11af9-11aff 11b0a-11b5f 11b68-11bbf 11be2-11bef 11bfa-11bff 11c09 11c37 11c46-11c4f",
    "11c6d-11c6f 11c90-11c91 11ca8 11cb7-11cff 11d07 11d0a 11d37-11d39 11d3b 11d3e 11d48-11d4f",
    "11d5a-11d5f 11d66 11d69 11d8f 11d92 11d99-11d9f 11daa-11daf 11ddc-11ddf 11dea-11edf",
    "11ef9-11eff 11f11 11f3b-11f3d 11f5b-11faf 11fb1-11fbf 11ff2-11ffe 1239a-123ff 1246f",
    "12475-1247f 12544-12f8f 12ff3-12fff 13430-1343f 13456-1345f 143fb-143ff 14647-160ff",
    "1613a-167ff 16a39-16a3f 16a5f 16a6a-16a6d 16abf 16aca-16acf 16aee-16aef 16af6-16aff",
    "16b46-16b4f 16b5a 16b62 16b78-16b7c 16b90-16d3f 16d7a-16e3f 16e9b-16e9f 16eb9-16eba",
    "16ed4-16eff 16f4b-16f4e 16f88-16f8e 16fa0-16fdf 16fe5-16fef 16ff7-16fff 18cd6-18cfe",
    "18d1f-18d7f 18df3-1afef 1aff4 1affc 1afff 1b123-1b131 1b133-1b14f 1b153-1b154 1b156-1b163",
    "1b168-1b16f 1b2fc-1bbff 1bc6b-1bc6f 1bc7d-1bc7f 1bc89-1bc8f 1bc9a-1bc9b 1bca4-1cbff",
    "1ccfd-1ccff 1ceb4-1ceb9 1ced1-1cedf 1cef1-1ceff 1cf2e-1cf2f 1cf47-1cf4f 1cfc4-1cfff",
    "1d0f6-1d0ff 1d127-1d128 1d1eb-1d1ff 1d246-1d2bf 1d2d4-1d2df 1d2f4-1d2ff 1d357-1d35f",
    "1d379-1d3ff 1d455 1d49d 1d4a0-1d4a1 1d4a3-1d4a4 1d4a7-1d4a8 1d4ad 1d4ba 1d4bc 1d4c4 1d506",
    "1d50b-1d50c 1d515 1d51d 1d53a 1d53f 1d545 1d547-1d549 1d551 1d6a6-1d6a7 1d7cc-1d7cd",
    "1da8c-1da9a 1daa0 1dab0-1deff 1df1f-1df24 1df2b-1dfff 1e007 1e019-1e01a 1e022 1e025",
    "1e02b-1e02f 1e06e-1e08e 1e090-1e0ff 1e12d-1e12f 1e13e-1e13f 1e14a-1e14d 1e150-1e28f",
    "1e2af-1e2bf 1e2fa-1e2fe 1e300-1e4cf 1e4fa-1e5cf 1e5fb-1e5fe 1e600-1e6bf 1e6df 1e6f6-1e6fd",
    "1e700-1e7df 1e7e7 1e7ec 1e7ef 1e7ff 1e8c5-1e8c6 1e8d7-1e8ff 1e94c-1e94f 1e95a-1e95d",
    "1e960-1ec70 1ecb5-1ed00 1ed3e-1edff 1ee04 1ee20 1ee23 1ee25-1ee26 1ee28 1ee33 1ee38 1ee3a",
    "1ee3c-1ee41 1ee43-1ee46 1ee48-1ee4c/2 1ee50 1ee53 1ee55-1ee56 1ee58-1ee60/2 1ee63",
    "1ee65-1ee66 1ee6b 1ee73 1ee78 1ee7d 1ee7f 1ee8a 1ee9c-1eea0 1eea4 1eeaa 1eebc-1eeef",
    "1eef2-1efff 1f02c-1f02f 1f094-1f09f 1f0af-1f0b0 1f0c0 1f0d0 1f0f6-1f100 1f1ae-1f1e5",
    "1f203-1f20f 1f23c-1f23f 1f249-1f24f 1f252-1f25f 1f266-1f2ff 1f6d9-1f6db 1f6ed-1f6ef",
    "1f6fd-1f6ff 1f7da-1f7df 1f7ec-1f7ef 1f7f1-1f7ff 1f80c-1f80f 1f848-1f84f 1f85a-1f85f",
    "1f888-1f88f 1f8ae-1f8af 1f8bc-1f8bf 1f8c2-1f8cf 1f8d9-1f8ff 1fa58-1fa5f 1fa6e-1fa6f",
    "1fa7d-1fa7f 1fa8b-1fa8d 1fac7 1fac9-1facc 1fadd-1fade 1faeb-1faee 1faf9-1faff 1fb93",
    "1fbfb-1ffff 2a6e0-2a6ff 2b81e-2b81f 2ceae-2ceaf 2ebe1-2ebef 2ee5e-2f7ff 2fa1e-2ffff",
    "3134b-3134f 3347a-e00ff e01f0-10ffff"]

/-- The characters that count for nothing. -/
def ignored : List CodeRange := CodeRange.all [
    "ad 34f 115f-1160 17b4-17b5 180b-180f 200b 2060-206f 3164 fe00-fe0f feff ffa0 1bca0-1bca3",
    "1d173-1d17a e0100-e01ef"]

/-- The characters that stand for others outside ASCII. -/
def respelled : List CodeRange := CodeRange.all [
    "b5 bc-be c0-d6 d8-de 100-130/2 134 136 139-13d/2 13f-141 143-147/2 149-14a 14c-176/2",
    "178-179 17b 17d 181-182 184 186-187 189-18b 18e-191 193-194 196-198 19c-19d 19f-1a0 1a2 1a4",
    "1a6-1a7 1a9 1ac 1ae-1af 1b1-1b3 1b5 1b7-1b8 1bc 1c4-1cd 1cf-1db/2 1de-1ee/2 1f4 1f6-1f8",
    "1fa-232/2 23a-23b 23d-23e 241 243-246 248-24e/2 2b1-2b6 2e0-2e4 340-341 343-345 370-376/2",
    "37f-38f 391-3ab 3cf-3d6 3d8-3ee/2 3f0-3f2 3f4-3f5 3f7 3f9-3fa 3fd-42f 460-480/2 48a-4be/2",
    "4c0-4c1 4c3-4cd/2 4d0-52e/2 531-556 587 675-678 958-95f 9dc-9df a33 a36 a59-a5b a5e b5c-b5d",
    "e33 eb3 edc-edd f0c f43 f4d f52 f57 f5c f69 f73 f75-f79 f81 f93 f9d fa2 fa7 fac fb9",
    "10a0-10cd 10fc 13f8-13fd 1c80-1c89 1c90-1cbf 1d2d 1d32 1d3d-1d4c 1d51-1d6a 1d78 1d9b-1dbf",
    "1e00-1e94/2 1e9a-1e9b 1e9e-1efe/2 1f08-1f0f 1f18-1f1d 1f28-1f2f 1f38-1f3f 1f48-1f4d",
    "1f59-1f5f 1f68-1f6f 1f71-1f7b/2 1f7d-1faf 1fb2-1fb4 1fb7-1fc4 1fc7-1fcc 1fd3 1fd8-1fdb 1fe3",
    "1fe8-1ff4 1ff7-1ffc 2011 2033-2034 2036-2037 2057 207b-2094 2103 2107 2109-210f 2126 212b",
    "2132-2138 213c-2140 2150-215f 2183 2189 222c-222d 222f-2230 2329-232a 2a0c 2adc 2c00-2c2f",
    "2c60 2c62-2c64 2c67-2c6b/2 2c6d-2c70 2c72 2c75 2c7e-2c80 2c82-2ce2/2 2ceb 2ced 2cf2 2d6f",
    "2e9f 2ef3-2fd5 3036 3038-303a 309f 30ff 3131-318e 3192-319f 3200-3247 3260-327e 3280-33fe",
    "a640-a66c/2 a680-a69a/2 a69c-a69d a722-a72e/2 a732-a770/2 a779 a77b a77d-a77e a780-a786/2",
    "a78b a78d a790 a792 a796-a7a8/2 a7aa-a7ae a7b0-a7b4 a7b6-a7c2/2 a7c4-a7c7 a7c9 a7cb-a7cc",
    "a7ce-a7da/2 a7dc-a7f5 a7f8-a7f9 ab5c-ab5f ab69 ab70-abbf f900-fa0d fa10 fa12 fa15-fa1e fa20",
    "fa22 fa25-fa26 fa2a-fb1d fb1f-fbb1 fbd3-fd3d fd50-fd8f fd92-fdc7 fdf0-fdfc fe11-fe18",
    "fe31-fe44 fe51-fe71 fe77-ffee 10400-10427 104b0-104d3 10570-10595 10781-107ba 10c80-10cb2",
    "10d50-10d65 118a0-118bf 16e40-16e5f 16ea0-16eb8 1d15e-1d164 1d1bb-1d1c0 1d6a4-1d7cb",
    "1e030-1e06d 1e900-1e921 1ee00-1eebb 1f12a 1f200-1f251 2f800-2fa1d"]

/-- Characters one after the other that stand for ASCII ones: the first of them for `image`, and
    each next one for the same with every character moved on by one. -/
structure Folding where
  range : CodeRange
  image : List Char

namespace Folding

/-- The characters of their numbers, two digits each. -/
def imageOf : List Char → List Char
  | hi :: lo :: rest => Char.ofNat (Text.Hex.number 16 [hi, lo]) :: imageOf rest
  | _ => []

/-- A folding as the table spells it: a range, a colon, and the image of its first character. -/
def ofText (text : String) : Folding :=
  match text.splitOn ":" with
  | [range, image] => ⟨.ofText range, imageOf image.toList⟩
  | _ => ⟨.ofText text, []⟩

/-- What a character of the range is folded to: the image moved along with it. -/
def image? (f : Folding) (c : Char) : Option (List Char) :=
  if f.range.contains c then
    some (f.image.map fun d => Char.ofNat (d.toNat + (c.toNat - f.range.first)))
  else none

end Folding

/-- The characters outside ASCII that stand for ASCII ones. -/
def foldings : List Folding := List.map Folding.ofText (List.flatMap (fun s => s.splitOn " ") [
    "aa:61 b2-b3:32 b9:31 ba:6f 132:696a 133:696a 17f:73 1c7:6c6a 1c8:6c6a 1c9:6c6a 1ca:6e6a",
    "1cb:6e6a 1cc:6e6a 1f1:647a 1f2:647a 1f3:647a 2b0:68 2b2:6a 2b3:72 2b7:77 2b8:79 2e1:6c",
    "2e2:73 2e3:78 37e:3b 1d2c:61 1d2e:62 1d30-1d31:64 1d33-1d3a:67 1d3c:6f 1d3e:70 1d3f:72",
    "1d40-1d41:74 1d42:77 1d43:61 1d47:62 1d48-1d49:64 1d4d:67 1d4f:6b 1d50:6d 1d52:6f 1d56:70",
    "1d57-1d58:74 1d5b:76 1d62:69 1d63:72 1d64-1d65:75 1d9c:63 1da0:66 1dbb:7a 1fef:60 203c:2121",
    "2070:30 2071:69 2074-2079:34 207a:2b 207c:3d 207d-207e:28 207f:6e 2080-2089:30 208a:2b",
    "208c:3d 208d-208e:28 2090:61 2091:65 2092:6f 2093:78 2095:68 2096-2099:6b 209a:70",
    "209b-209c:73 20a8:7273 2102:63 210a-210b:67 210c:68 210d:68 210e:68 2110:69 2111:69 2112:6c",
    "2113:6c 2115:6e 2116:6e6f 2119-211b:70 211c:72 211d:72 2120:736d 2121:74656c 2122:746d",
    "2124:7a 2128:7a 212a:6b 212c-212d:62 212f:65 2130-2131:65 2133:6d 2134:6f 2139:69",
    "213b:666178 2145:64 2146-2147:64 2148-2149:69 2160:69 2161:6969 2162:696969 2163:6976",
    "2164:76 2165:7669 2166:766969 2167:76696969 2168:6978 2169:78 216a:7869 216b:786969 216c:6c",
    "216d-216e:63 216f:6d 2170:69 2171:6969 2172:696969 2173:6976 2174:76 2175:7669 2176:766969",
    "2177:76696969 2178:6978 2179:78 217a:7869 217b:786969 217c:6c 217d-217e:63 217f:6d",
    "2460-2468:31 2469:3130 246a:3131 246b:3132 246c:3133 246d:3134 246e:3135 246f:3136",
    "2470:3137 2471:3138 2472:3139 2473:3230 2474:283129 2475:283229 2476:283329 2477:283429",
    "2478:283529 2479:283629 247a:283729 247b:283829 247c:283929 247d:28313029 247e:28313129",
    "247f:28313229 2480:28313329 2481:28313429 2482:28313529 2483:28313629 2484:28313729",
    "2485:28313829 2486:28313929 2487:28323029 249c:286129 249d:286229 249e:286329 249f:286429",
    "24a0:286529 24a1:286629 24a2:286729 24a3:286829 24a4:286929 24a5:286a29 24a6:286b29",
    "24a7:286c29 24a8:286d29 24a9:286e29 24aa:286f29 24ab:287029 24ac:287129 24ad:287229",
    "24ae:287329 24af:287429 24b0:287529 24b1:287629 24b2:287729 24b3:287829 24b4:287929",
    "24b5:287a29 24b6-24cf:61 24d0-24e9:61 24ea:30 2a75:3d3d 2a76:3d3d3d 2c7c:6a 2c7d:76 3002:2e",
    "3250:707465 3251:3231 3252:3232 3253:3233 3254:3234 3255:3235 3256:3236 3257:3237 3258:3238",
    "3259:3239 325a:3330 325b:3331 325c:3332 325d:3333 325e:3334 325f:3335 32b1:3336 32b2:3337",
    "32b3:3338 32b4:3339 32b5:3430 32b6:3431 32b7:3432 32b8:3433 32b9:3434 32ba:3435 32bb:3436",
    "32bc:3437 32bd:3438 32be:3439 32bf:3530 32cc:6867 32cd:657267 32ce:6576 32cf:6c7464",
    "3371:687061 3372:6461 3373:6175 3374:626172 3375:6f76 3376:7063 3377:646d 3378:646d32",
    "3379:646d33 337a:6975 3380:7061 3381:6e61 3383:6d61 3384:6b61 3385:6b62 3386:6d62 3387:6762",
    "3388:63616c 3389:6b63616c 338a:7066 338b:6e66 338e:6d67 338f:6b67 3390:687a 3391:6b687a",
    "3392:6d687a 3393:67687a 3394:74687a 3396:6d6c 3397:646c 3398:6b6c 3399:666d 339a:6e6d",
    "339c:6d6d 339d:636d 339e:6b6d 339f:6d6d32 33a0:636d32 33a1:6d32 33a2:6b6d32 33a3:6d6d33",
    "33a4:636d33 33a5:6d33 33a6:6b6d33 33a9:7061 33aa:6b7061 33ab:6d7061 33ac:677061 33ad:726164",
    "33b0:7073 33b1:6e73 33b3:6d73 33b4:7076 33b5:6e76 33b7:6d76 33b8:6b76 33b9:6d76 33ba:7077",
    "33bb:6e77 33bd:6d77 33be:6b77 33bf:6d77 33c3:6271 33c4:6363 33c5:6364 33c8:6462 33c9:6779",
    "33ca:6861 33cb:6870 33cc:696e 33cd:6b6b 33ce:6b6d 33cf:6b74 33d0:6c6d 33d1:6c6e 33d2:6c6f67",
    "33d3:6c78 33d4:6d62 33d5:6d696c 33d6:6d6f6c 33d7:7068 33d9:70706d 33da:7072 33db:7372",
    "33dc:7376 33dd:7762 33ff:67616c a7f1:73 a7f2:63 a7f3:66 a7f4:71 fb00:6666 fb01:6669",
    "fb02:666c fb03:666669 fb04:66666c fb05:7374 fb06:7374 fb29:2b fe10:2c fe14:3b fe15:21",
    "fe33:5f fe34:5f fe35-fe36:28 fe37:7b fe38:7d fe4d:5f fe4e:5f fe4f:5f fe50:2c fe54:3b",
    "fe57:21 fe59-fe5a:28 fe5b:7b fe5c:7d fe60:26 fe61-fe62:2a fe63:2d fe66:3d fe69:24",
    "ff01-ff02:21 ff04:24 ff06-ff0e:26 ff10-ff19:30 ff1b:3b ff1d:3d ff21-ff3a:61 ff3f-ff5b:5f",
    "ff5d-ff5e:7d ff61:2e 107a5:71 1ccd6-1ccef:61 1ccf0-1ccf9:30 1d400-1d419:61 1d41a-1d433:61",
    "1d434-1d44d:61 1d44e-1d454:61 1d456-1d467:69 1d468-1d481:61 1d482-1d49b:61 1d49c:61",
    "1d49e-1d49f:63 1d4a2:67 1d4a5-1d4a6:6a 1d4a9-1d4ac:6e 1d4ae-1d4b5:73 1d4b6-1d4b9:61",
    "1d4bb:66 1d4bd-1d4c3:68 1d4c5-1d4cf:70 1d4d0-1d4e9:61 1d4ea-1d503:61 1d504-1d505:61",
    "1d507-1d50a:64 1d50d-1d514:6a 1d516-1d51c:73 1d51e-1d537:61 1d538-1d539:61 1d53b-1d53e:64",
    "1d540-1d544:69 1d546:6f 1d54a-1d550:73 1d552-1d56b:61 1d56c-1d585:61 1d586-1d59f:61",
    "1d5a0-1d5b9:61 1d5ba-1d5d3:61 1d5d4-1d5ed:61 1d5ee-1d607:61 1d608-1d621:61 1d622-1d63b:61",
    "1d63c-1d655:61 1d656-1d66f:61 1d670-1d689:61 1d68a-1d6a3:61 1d7ce-1d7d7:30 1d7d8-1d7e1:30",
    "1d7e2-1d7eb:30 1d7ec-1d7f5:30 1d7f6-1d7ff:30 1f101:302c 1f102:312c 1f103:322c 1f104:332c",
    "1f105:342c 1f106:352c 1f107:362c 1f108:372c 1f109:382c 1f10a:392c 1f110:286129 1f111:286229",
    "1f112:286329 1f113:286429 1f114:286529 1f115:286629 1f116:286729 1f117:286829 1f118:286929",
    "1f119:286a29 1f11a:286b29 1f11b:286c29 1f11c:286d29 1f11d:286e29 1f11e:286f29 1f11f:287029",
    "1f120:287129 1f121:287229 1f122:287329 1f123:287429 1f124:287529 1f125:287629 1f126:287729",
    "1f127:287829 1f128:287929 1f129:287a29 1f12b:63 1f12c:72 1f12d:6364 1f12e:777a",
    "1f130-1f149:61 1f14a:6876 1f14b:6d76 1f14c:7364 1f14d:7373 1f14e:707076 1f14f:7763",
    "1f16a:6d63 1f16b:6d64 1f16c:6d72 1f190:646a 1fbf0-1fbf9:30"])

/-- The characters of ASCII that are in no name. -/
def isDenied (c : Char) : Bool :=
  c.toNat ≤ 32 || c.toNat == 127 || "%#/:<>?@[\\]^|".toList.contains c

/-- A character of seven bits. -/
def isAscii (c : Char) : Bool := c.toNat < 128

/-- What a character is spelled as, unless it is outside ASCII and in no name. -/
def spelled? (c : Char) : Option (List Char) :=
  if isAscii c then some [c.toLower]
  else if inAny disallowed c then none
  else if inAny ignored c then some []
  else some ((foldings.findSome? (·.image? c)).getD [c])

/-- A name as it is spelled, in composed form. Only that must be free of what no name has: a letter
    that is in no name may be part of one that is. -/
def spelling? (cs : List Char) : Option (List Char) := do
  let spelled := composed (← cs.mapM spelled?).flatten
  if spelled.any isDenied then none else some spelled

/-- Whether a character may be in a name and is its own spelling. -/
def isPlain (c : Char) : Bool :=
  !isDenied c && spelled? c == some [c] && !inAny respelled c

end LedgerSearch.Host
