import PublisherConsole.Unicode.Ranges

/-!
# Line breaking classes

Each character belongs to one class, and whether a line may end between two characters depends on
their classes.
-/

namespace PublisherConsole.Unicode

/-- The classes of the line breaking algorithm, after ambiguous, complex-context and unassigned
characters have been resolved to one of them. -/
inductive BreakClass
  /-- The class of ordinary letters and symbols. -/
  | al
  /-- The class of dashes that allow a break on both sides. -/
  | b2
  /-- The class of characters that allow a break after them. -/
  | ba
  /-- The class of characters that allow a break before them. -/
  | bb
  /-- The class of mandatory breaks. -/
  | bk
  /-- The class of embedded objects. -/
  | cb
  /-- The class of closing punctuation. -/
  | cl
  /-- The class of combining marks. -/
  | cm
  /-- The class of closing parentheses. -/
  | cp
  /-- The class of the carriage return. -/
  | cr
  /-- The class of pictographs that take a modifier. -/
  | eb
  /-- The class of pictograph modifiers. -/
  | em
  /-- The class of exclamation and interrogation marks. -/
  | ex
  /-- The class of glue that forbids breaks on both sides. -/
  | gl
  /-- The class of Hangul syllables of two parts. -/
  | h2
  /-- The class of Hangul syllables of three parts. -/
  | h3
  /-- The class of Hebrew letters. -/
  | hl
  /-- The class of the hyphen-minus. -/
  | hy
  /-- The class of ideographs. -/
  | id
  /-- The class of leaders such as the ellipsis. -/
  | inseparable
  /-- The class of separators inside numbers. -/
  | isep
  /-- The class of leading Hangul parts. -/
  | jl
  /-- The class of trailing Hangul parts. -/
  | jt
  /-- The class of Hangul vowels. -/
  | jv
  /-- The class of the line feed. -/
  | lf
  /-- The class of the next-line control. -/
  | nl
  /-- The class of characters that do not start a line. -/
  | ns
  /-- The class of digits. -/
  | nu
  /-- The class of narrow opening punctuation. -/
  | op
  /-- The class of wide opening punctuation. -/
  | opWide
  /-- The class of code points reserved for pictographs. -/
  | idReserved
  /-- The class of marks behind numbers. -/
  | po
  /-- The class of marks before numbers. -/
  | pr
  /-- The class of quotation marks. -/
  | qu
  /-- The class of regional indicators. -/
  | ri
  /-- The class of the blank. -/
  | sp
  /-- The class of the solidus. -/
  | sy
  /-- The class of the word joiner. -/
  | wj
  /-- The class of the zero-width blank. -/
  | zw
  /-- The class of the zero-width joiner. -/
  | zwj
  deriving DecidableEq, Repr, Inhabited

/-- The class behind each letter of the table; Hangul syllables are told apart by their number. -/
def BreakClass.ofLetter : Char → BreakClass
  | '2' => .b2
  | 'A' => .ba
  | 'B' => .bb
  | 'K' => .bk
  | 'c' => .cb
  | 'l' => .cl
  | 'm' => .cm
  | 'p' => .cp
  | 'r' => .cr
  | 'e' => .eb
  | 'M' => .em
  | 'x' => .ex
  | 'g' => .gl
  | 'h' => .h3
  | 'H' => .hl
  | 'y' => .hy
  | 'i' => .id
  | 'n' => .inseparable
  | 's' => .isep
  | 'L' => .jl
  | 'T' => .jt
  | 'V' => .jv
  | 'f' => .lf
  | 'N' => .nl
  | 'S' => .ns
  | 'u' => .nu
  | 'o' => .op
  | 'O' => .po
  | 'P' => .pr
  | 'q' => .qu
  | 'R' => .ri
  | '_' => .sp
  | 'Y' => .sy
  | 'w' => .wj
  | 'z' => .zw
  | 'j' => .zwj
  | 'W' => .opWide
  | 'X' => .idReserved
  | _ => .al

/-- Where each class begins. -/
def breakClasses : ClassTable BreakClass := ClassTable.ofText .al BreakClass.ofLetter "
  0:m 9:A a:f b:K d:r e:m 20:_ 21:x 22:q 23:a 24:P 25:O 26:a 27:q 28:o 29:p 2a:a 2b:P 2c:s
  2d:y 2e:s 2f:Y 30:u 3a:s 3c:a 3f:x 40:a 5b:o 5c:P 5d:p 5e:a 7b:o 7c:A 7d:l 7e:a 7f:m 85:N
  86:m a0:g a1:o a2:O a3:P a6:a ab:q ac:a ad:A ae:a b0:O b1:P b2:a b4:B b5:a bb:q bc:a bf:o
  c0:a 2c8:B 2c9:a 2cc:B 2cd:a 2df:B 2e0:a 300:m 34f:g 350:m 35c:g 363:m 370:a 37e:s 37f:a
  483:m 48a:a 589:s 58a:A 58b:a 58f:P 590:a 591:m 5be:A 5bf:m 5c0:a 5c1:m 5c3:a 5c4:m 5c6:x
  5c7:m 5c8:a 5d0:H 5eb:a 5ef:H 5f3:a 609:O 60c:s 60e:a 610:m 61b:x 61c:m 61d:x 620:a 64b:m
  660:u 66a:O 66b:u 66d:a 670:m 671:a 6d4:x 6d5:a 6d6:m 6dd:a 6df:m 6e5:a 6e7:m 6e9:a 6ea:m
  6ee:a 6f0:u 6fa:a 711:m 712:a 730:m 74b:a 7a6:m 7b1:a 7c0:u 7ca:a 7eb:m 7f4:a 7f8:s 7f9:x
  7fa:a 7fd:m 7fe:P 800:a 816:m 81a:a 81b:m 824:a 825:m 828:a 829:m 82e:a 859:m 85c:a 898:m
  8a0:a 8ca:m 8e2:a 8e3:m 904:a 93a:m 93d:a 93e:m 950:a 951:m 958:a 962:m 964:A 966:u 970:a
  981:m 984:a 9bc:m 9bd:a 9be:m 9c5:a 9c7:m 9c9:a 9cb:m 9ce:a 9d7:m 9d8:a 9e2:m 9e4:a 9e6:u
  9f0:a 9f2:O 9f4:a 9f9:O 9fa:a 9fb:P 9fc:a 9fe:m 9ff:a a01:m a04:a a3c:m a3d:a a3e:m a43:a
  a47:m a49:a a4b:m a4e:a a51:m a52:a a66:u a70:m a72:a a75:m a76:a a81:m a84:a abc:m abd:a
  abe:m ac6:a ac7:m aca:a acb:m ace:a ae2:m ae4:a ae6:u af0:a af1:P af2:a afa:m b00:a b01:m
  b04:a b3c:m b3d:a b3e:m b45:a b47:m b49:a b4b:m b4e:a b55:m b58:a b62:m b64:a b66:u b70:a
  b82:m b83:a bbe:m bc3:a bc6:m bc9:a bca:m bce:a bd7:m bd8:a be6:u bf0:a bf9:P bfa:a c00:m
  c05:a c3c:m c3d:a c3e:m c45:a c46:m c49:a c4a:m c4e:a c55:m c57:a c62:m c64:a c66:u c70:a
  c77:B c78:a c81:m c84:B c85:a cbc:m cbd:a cbe:m cc5:a cc6:m cc9:a cca:m cce:a cd5:m cd7:a
  ce2:m ce4:a ce6:u cf0:a cf3:m cf4:a d00:m d04:a d3b:m d3d:a d3e:m d45:a d46:m d49:a d4a:m
  d4e:a d57:m d58:a d62:m d64:a d66:u d70:a d79:O d7a:a d81:m d84:a dca:m dcb:a dcf:m dd5:a
  dd6:m dd7:a dd8:m de0:a de6:u df0:a df2:m df4:a e31:m e32:a e34:m e3b:a e3f:P e40:a e47:m
  e4f:a e50:u e5a:A e5c:a eb1:m eb2:a eb4:m ebd:a ec8:m ecf:a ed0:u eda:a f01:B f05:a f06:B
  f08:g f09:B f0b:A f0c:g f0d:x f12:g f13:a f14:x f15:a f18:m f1a:a f20:u f2a:a f34:A f35:m
  f36:a f37:m f38:a f39:m f3a:o f3b:l f3c:o f3d:l f3e:m f40:a f71:m f7f:A f80:m f85:A f86:m
  f88:a f8d:m f98:a f99:m fbd:a fbe:A fc0:a fc6:m fc7:a fd0:B fd2:A fd3:B fd4:a fd9:g fdb:a
  102b:m 103f:a 1040:u 104a:A 104c:a 1056:m 105a:a 105e:m 1061:a 1062:m 1065:a 1067:m 106e:a
  1071:m 1075:a 1082:m 108e:a 108f:m 1090:u 109a:m 109e:a 1100:L 1160:V 11a8:T 1200:a 135d:m
  1360:a 1361:A 1362:a 1400:A 1401:a 1680:A 1681:a 169b:o 169c:l 169d:a 16eb:A 16ee:a 1712:m
  1716:a 1732:m 1735:A 1737:a 1752:m 1754:a 1772:m 1774:a 17b4:m 17d4:A 17d6:S 17d7:a 17d8:A
  17d9:a 17da:A 17db:P 17dc:a 17dd:m 17de:a 17e0:u 17ea:a 1802:x 1804:A 1806:B 1807:a 1808:x
  180a:a 180b:m 180e:g 180f:m 1810:u 181a:a 1885:m 1887:a 18a9:m 18aa:a 1920:m 192c:a 1930:m
  193c:a 1944:x 1946:u 1950:a 19d0:u 19da:a 1a17:m 1a1c:a 1a55:m 1a5f:a 1a60:m 1a7d:a 1a7f:m
  1a80:u 1a8a:a 1a90:u 1a9a:a 1ab0:m 1acf:a 1b00:m 1b05:a 1b34:m 1b45:a 1b50:u 1b5a:A 1b5c:a
  1b5d:A 1b61:a 1b6b:m 1b74:a 1b7d:A 1b7f:a 1b80:m 1b83:a 1ba1:m 1bae:a 1bb0:u 1bba:a 1be6:m
  1bf4:a 1c24:m 1c38:a 1c3b:A 1c40:u 1c4a:a 1c50:u 1c5a:a 1c7e:A 1c80:a 1cd0:m 1cd3:a 1cd4:m
  1ce9:a 1ced:m 1cee:a 1cf4:m 1cf5:a 1cf7:m 1cfa:a 1dc0:m 1dcd:g 1dce:m 1dfc:g 1dfd:m 1e00:a
  1ffd:B 1ffe:a 2000:A 2007:g 2008:A 200b:z 200c:m 200d:j 200e:m 2010:A 2011:g 2012:A 2014:2
  2015:a 2018:q 201a:o 201b:q 201e:o 201f:q 2020:a 2024:n 2027:A 2028:K 202a:m 202f:g 2030:O
  2038:a 2039:q 203b:a 203c:S 203e:a 2044:s 2045:o 2046:l 2047:S 204a:a 2056:A 2057:O 2058:A
  205c:a 205d:A 2060:w 2061:a 2066:m 2070:a 207d:o 207e:l 207f:a 208d:o 208e:l 208f:a 20a0:P
  20a7:O 20a8:P 20b6:O 20b7:P 20bb:O 20bc:P 20be:O 20bf:P 20c0:O 20c1:P 20d0:m 20f1:a 2103:O
  2104:a 2109:O 210a:a 2116:P 2117:a 2212:P 2214:a 22ef:n 22f0:a 2308:o 2309:l 230a:o 230b:l
  230c:a 231a:i 231c:a 2329:W 232a:l 232b:a 23f0:i 23f4:a 2600:i 2604:a 2614:i 2616:a 2618:i
  2619:a 261a:i 261d:e 261e:i 2620:a 2639:i 263c:a 2668:i 2669:a 267f:i 2680:a 26bd:i 26c9:a
  26cd:i 26ce:a 26cf:i 26d2:a 26d3:i 26d5:a 26d8:i 26da:a 26dc:i 26dd:a 26df:i 26e2:a 26ea:i
  26eb:a 26f1:i 26f6:a 26f7:i 26f9:e 26fa:i 26fb:a 26fd:i 2705:a 2708:i 270a:e 270e:a 275b:q
  2761:a 2762:x 2764:i 2765:a 2768:o 2769:l 276a:o 276b:l 276c:o 276d:l 276e:o 276f:l 2770:o
  2771:l 2772:o 2773:l 2774:o 2775:l 2776:a 27c5:o 27c6:l 27c7:a 27e6:o 27e7:l 27e8:o 27e9:l
  27ea:o 27eb:l 27ec:o 27ed:l 27ee:o 27ef:l 27f0:a 2983:o 2984:l 2985:o 2986:l 2987:o 2988:l
  2989:o 298a:l 298b:o 298c:l 298d:o 298e:l 298f:o 2990:l 2991:o 2992:l 2993:o 2994:l 2995:o
  2996:l 2997:o 2998:l 2999:a 29d8:o 29d9:l 29da:o 29db:l 29dc:a 29fc:o 29fd:l 29fe:a 2cef:m
  2cf2:a 2cf9:x 2cfa:A 2cfd:a 2cfe:x 2cff:A 2d00:a 2d70:A 2d71:a 2d7f:m 2d80:a 2de0:m 2e00:q
  2e0e:A 2e16:a 2e17:A 2e18:o 2e19:A 2e1a:a 2e1c:q 2e1e:a 2e20:q 2e22:o 2e23:l 2e24:o 2e25:l
  2e26:o 2e27:l 2e28:o 2e29:l 2e2a:A 2e2e:x 2e2f:a 2e30:A 2e32:a 2e33:A 2e35:a 2e3a:2 2e3c:A
  2e3f:a 2e40:A 2e42:o 2e43:A 2e4b:a 2e4c:A 2e4d:a 2e4e:A 2e50:a 2e53:x 2e55:o 2e56:l 2e57:o
  2e58:l 2e59:o 2e5a:l 2e5b:o 2e5c:l 2e5d:A 2e5e:a 2e80:i 2e9a:a 2e9b:i 2ef4:a 2f00:i 2fd6:a
  2ff0:i 2ffc:a 3000:A 3001:l 3003:i 3005:S 3006:i 3008:W 3009:l 300a:W 300b:l 300c:W 300d:l
  300e:W 300f:l 3010:W 3011:l 3012:i 3014:W 3015:l 3016:W 3017:l 3018:W 3019:l 301a:W 301b:l
  301c:S 301d:W 301e:l 3020:i 302a:m 3030:i 3035:m 3036:i 303b:S 303d:i 3040:a 3041:S 3042:i
  3043:S 3044:i 3045:S 3046:i 3047:S 3048:i 3049:S 304a:i 3063:S 3064:i 3083:S 3084:i 3085:S
  3086:i 3087:S 3088:i 308e:S 308f:i 3095:S 3097:a 3099:m 309b:S 309f:i 30a0:S 30a2:i 30a3:S
  30a4:i 30a5:S 30a6:i 30a7:S 30a8:i 30a9:S 30aa:i 30c3:S 30c4:i 30e3:S 30e4:i 30e5:S 30e6:i
  30e7:S 30e8:i 30ee:S 30ef:i 30f5:S 30f7:i 30fb:S 30ff:i 3100:a 3105:i 3130:a 3131:i 318f:a
  3190:i 31e4:a 31f0:S 3200:i 321f:a 3220:i 3248:a 3250:i 4dc0:a 4e00:i a015:S a016:i a48d:a
  a490:i a4c7:a a4fe:A a500:a a60d:A a60e:x a60f:A a610:a a620:u a62a:a a66f:m a673:a a674:m
  a67e:a a69e:m a6a0:a a6f0:m a6f2:a a6f3:A a6f8:a a802:m a803:a a806:m a807:a a80b:m a80c:a
  a823:m a828:a a82c:m a82d:a a838:O a839:a a874:B a876:x a878:a a880:m a882:a a8b4:m a8c6:a
  a8ce:A a8d0:u a8da:a a8e0:m a8f2:a a8fc:B a8fd:a a8ff:m a900:u a90a:a a926:m a92e:A a930:a
  a947:m a954:a a960:L a97d:a a980:m a984:a a9b3:m a9c1:a a9c7:A a9ca:a a9d0:u a9da:a a9e5:m
  a9e6:a a9f0:u a9fa:a aa29:m aa37:a aa43:m aa44:a aa4c:m aa4e:a aa50:u aa5a:a aa5d:A aa60:a
  aa7b:m aa7e:a aab0:m aab1:a aab2:m aab5:a aab7:m aab9:a aabe:m aac0:a aac1:m aac2:a aaeb:m
  aaf0:A aaf2:a aaf5:m aaf7:a abe3:m abeb:A abec:m abee:a abf0:u abfa:a ac00:h d7a4:a d7b0:V
  d7c7:a d7cb:T d7fc:a f900:i fb00:a fb1d:H fb1e:m fb1f:H fb29:a fb2a:H fb37:a fb38:H fb3d:a
  fb3e:H fb3f:a fb40:H fb42:a fb43:H fb45:a fb46:H fb50:a fd3e:l fd3f:o fd40:a fdfc:O fdfd:a
  fe00:m fe10:s fe11:l fe13:s fe15:x fe17:W fe18:l fe19:n fe1a:a fe20:m fe30:i fe35:W fe36:l
  fe37:W fe38:l fe39:W fe3a:l fe3b:W fe3c:l fe3d:W fe3e:l fe3f:W fe40:l fe41:W fe42:l fe43:W
  fe44:l fe45:i fe47:W fe48:l fe49:i fe50:l fe51:i fe52:l fe53:a fe54:S fe56:x fe58:i fe59:W
  fe5a:l fe5b:W fe5c:l fe5d:W fe5e:l fe5f:i fe67:a fe68:i fe69:P fe6a:O fe6b:i fe6c:a feff:w
  ff00:a ff01:x ff02:i ff04:P ff05:O ff06:i ff08:W ff09:l ff0a:i ff0c:l ff0d:i ff0e:l ff0f:i
  ff1a:S ff1c:i ff1f:x ff20:i ff3b:W ff3c:i ff3d:l ff3e:i ff5b:W ff5c:i ff5d:l ff5e:i ff5f:W
  ff60:l ff62:W ff63:l ff65:S ff66:i ff67:S ff71:i ff9e:S ffa0:i ffbf:a ffc2:i ffc8:a ffca:i
  ffd0:a ffd2:i ffd8:a ffda:i ffdd:a ffe0:O ffe1:P ffe2:i ffe5:P ffe7:a fff9:m fffc:c fffd:a
  10100:A 10103:a 101fd:m 101fe:a 102e0:m 102e1:a 10376:m 1037b:a 1039f:A 103a0:a 103d0:A
  103d1:a 104a0:u 104aa:a 10857:A 10858:a 1091f:A 10920:a 10a01:m 10a04:a 10a05:m 10a07:a
  10a0c:m 10a10:a 10a38:m 10a3b:a 10a3f:m 10a40:a 10a50:A 10a58:a 10ae5:m 10ae7:a 10af0:A
  10af6:n 10af7:a 10b39:A 10b40:a 10d24:m 10d28:a 10d30:u 10d3a:a 10eab:m 10ead:A 10eae:a
  10efd:m 10f00:a 10f46:m 10f51:a 10f82:m 10f86:a 11000:m 11003:a 11038:m 11047:A 11049:a
  11066:u 11070:m 11071:a 11073:m 11075:a 1107f:m 11083:a 110b0:m 110bb:a 110be:A 110c2:m
  110c3:a 110f0:u 110fa:a 11100:m 11103:a 11127:m 11135:a 11136:u 11140:A 11144:a 11145:m
  11147:a 11173:m 11174:a 11175:B 11176:a 11180:m 11183:a 111b3:m 111c1:a 111c5:A 111c7:a
  111c8:A 111c9:m 111cd:a 111ce:m 111d0:u 111da:a 111db:B 111dc:a 111dd:A 111e0:a 1122c:m
  11238:A 1123a:a 1123b:A 1123d:a 1123e:m 1123f:a 11241:m 11242:a 112a9:A 112aa:a 112df:m
  112eb:a 112f0:u 112fa:a 11300:m 11304:a 1133b:m 1133d:a 1133e:m 11345:a 11347:m 11349:a
  1134b:m 1134e:a 11357:m 11358:a 11362:m 11364:a 11366:m 1136d:a 11370:m 11375:a 11435:m
  11447:a 1144b:A 1144f:a 11450:u 1145a:A 1145c:a 1145e:m 1145f:a 114b0:m 114c4:a 114d0:u
  114da:a 115af:m 115b6:a 115b8:m 115c1:B 115c2:A 115c4:x 115c6:a 115c9:A 115d8:a 115dc:m
  115de:a 11630:m 11641:A 11643:a 11650:u 1165a:a 11660:B 1166d:a 116ab:m 116b8:a 116c0:u
  116ca:a 1171d:m 1172c:a 11730:u 1173a:a 1173c:A 1173f:a 1182c:m 1183b:a 118e0:u 118ea:a
  11930:m 11936:a 11937:m 11939:a 1193b:m 1193f:a 11940:m 11941:a 11942:m 11944:A 11947:a
  11950:u 1195a:a 119d1:m 119d8:a 119da:m 119e1:a 119e2:B 119e3:a 119e4:m 119e5:a 11a01:m
  11a0b:a 11a33:m 11a3a:a 11a3b:m 11a3f:B 11a40:a 11a41:A 11a45:B 11a46:a 11a47:m 11a48:a
  11a51:m 11a5c:a 11a8a:m 11a9a:A 11a9d:a 11a9e:B 11aa1:A 11aa3:a 11b00:B 11b0a:a 11c2f:m
  11c37:a 11c38:m 11c40:a 11c41:A 11c46:a 11c50:u 11c5a:a 11c70:B 11c71:x 11c72:a 11c92:m
  11ca8:a 11ca9:m 11cb7:a 11d31:m 11d37:a 11d3a:m 11d3b:a 11d3c:m 11d3e:a 11d3f:m 11d46:a
  11d47:m 11d48:a 11d50:u 11d5a:a 11d8a:m 11d8f:a 11d90:m 11d92:a 11d93:m 11d98:a 11da0:u
  11daa:a 11ef3:m 11ef7:a 11f00:m 11f02:a 11f03:m 11f04:a 11f34:m 11f3b:a 11f3e:m 11f43:A
  11f45:i 11f50:u 11f5a:a 11fdd:O 11fe1:a 11fff:A 12000:a 12470:A 12475:a 13258:o 1325b:l
  1325e:a 13282:l 13283:a 13286:o 13287:l 13288:o 13289:l 1328a:a 13379:o 1337a:l 1337c:a
  13430:g 13437:o 13438:l 13439:g 1343c:o 1343d:l 1343e:o 1343f:l 13440:m 13441:a 13447:m
  13456:a 145ce:o 145cf:l 145d0:a 16a60:u 16a6a:a 16a6e:A 16a70:a 16ac0:u 16aca:a 16af0:m
  16af5:A 16af6:a 16b30:m 16b37:A 16b3a:a 16b44:A 16b45:a 16b50:u 16b5a:a 16e97:A 16e99:a
  16f4f:m 16f50:a 16f51:m 16f88:a 16f8f:m 16f93:a 16fe0:S 16fe4:g 16fe5:a 16ff0:m 16ff2:a
  17000:i 187f8:a 18800:i 18b00:a 18d00:i 18d09:a 1b000:i 1b123:a 1b132:S 1b133:a 1b150:S
  1b153:a 1b155:S 1b156:a 1b164:S 1b168:a 1b170:i 1b2fc:a 1bc9d:m 1bc9f:A 1bca0:m 1bca4:a
  1cf00:m 1cf2e:a 1cf30:m 1cf47:a 1d165:m 1d16a:a 1d16d:m 1d183:a 1d185:m 1d18c:a 1d1aa:m
  1d1ae:a 1d242:m 1d245:a 1d7ce:u 1d800:a 1da00:m 1da37:a 1da3b:m 1da6d:a 1da75:m 1da76:a
  1da84:m 1da85:a 1da87:A 1da8b:a 1da9b:m 1daa0:a 1daa1:m 1dab0:a 1e000:m 1e007:a 1e008:m
  1e019:a 1e01b:m 1e022:a 1e023:m 1e025:a 1e026:m 1e02b:a 1e08f:m 1e090:a 1e130:m 1e137:a
  1e140:u 1e14a:a 1e2ae:m 1e2af:a 1e2ec:m 1e2f0:u 1e2fa:a 1e2ff:P 1e300:a 1e4ec:m 1e4f0:u
  1e4fa:a 1e8d0:m 1e8d7:a 1e944:m 1e94b:a 1e950:u 1e95a:a 1e95e:o 1e960:a 1ecac:O 1ecad:a
  1ecb0:O 1ecb1:a 1f000:i 1f02c:X 1f030:i 1f094:X 1f0a0:i 1f0af:X 1f0b1:i 1f0c0:X 1f0c1:i
  1f0d0:X 1f0d1:i 1f0f6:X 1f100:a 1f10d:i 1f110:a 1f16d:i 1f170:a 1f1ad:i 1f1ae:X 1f1e6:R
  1f200:i 1f203:X 1f210:i 1f23c:X 1f240:i 1f249:X 1f250:i 1f252:X 1f260:i 1f266:X 1f300:i
  1f385:e 1f386:i 1f39c:a 1f39e:i 1f3b5:a 1f3b7:i 1f3bc:a 1f3bd:i 1f3c2:e 1f3c5:i 1f3c7:e
  1f3c8:i 1f3ca:e 1f3cd:i 1f3fb:M 1f400:i 1f442:e 1f444:i 1f446:e 1f451:i 1f466:e 1f479:i
  1f47c:e 1f47d:i 1f481:e 1f484:i 1f485:e 1f488:i 1f48f:e 1f490:i 1f491:e 1f492:i 1f4a0:a
  1f4a1:i 1f4a2:a 1f4a3:i 1f4a4:a 1f4a5:i 1f4aa:e 1f4ab:i 1f4af:a 1f4b0:i 1f4b1:a 1f4b3:i
  1f500:a 1f507:i 1f517:a 1f525:i 1f532:a 1f54a:i 1f574:e 1f576:i 1f57a:e 1f57b:i 1f590:e
  1f591:i 1f595:e 1f597:i 1f5d4:a 1f5dc:i 1f5f4:a 1f5fa:i 1f645:e 1f648:i 1f64b:e 1f650:a
  1f676:q 1f679:S 1f67c:a 1f680:i 1f6a3:e 1f6a4:i 1f6b4:e 1f6b7:i 1f6c0:e 1f6c1:i 1f6cc:e
  1f6cd:i 1f6d8:X 1f6dc:i 1f6ed:X 1f6f0:i 1f6fd:X 1f700:a 1f774:i 1f777:X 1f77b:i 1f780:a
  1f7d5:i 1f7da:X 1f7e0:i 1f7ec:X 1f7f0:i 1f7f1:X 1f800:a 1f80c:X 1f810:a 1f848:X 1f850:a
  1f85a:X 1f860:a 1f888:X 1f890:a 1f8ae:X 1f8b0:i 1f8b2:X 1f900:a 1f90c:e 1f90d:i 1f90f:e
  1f910:i 1f918:e 1f920:i 1f926:e 1f927:i 1f930:e 1f93a:i 1f93c:e 1f93f:i 1f977:e 1f978:i
  1f9b5:e 1f9b7:i 1f9b8:e 1f9ba:i 1f9bb:e 1f9bc:i 1f9cd:e 1f9d0:i 1f9d1:e 1f9de:i 1fa00:a
  1fa54:X 1fa60:i 1fa6e:X 1fa70:i 1fa7d:X 1fa80:i 1fa89:X 1fa90:i 1fabe:X 1fabf:i 1fac3:e
  1fac6:X 1face:i 1fadc:X 1fae0:i 1fae9:X 1faf0:e 1faf9:X 1fb00:a 1fbf0:u 1fbfa:a 1fc00:X
  1fffe:a 20000:i 2fffe:a 30000:i 3fffe:a e0001:m e0002:a e0020:m e0080:a e0100:m e01f0:a"

/-- The line breaking class of a character. The blank is told apart before anything is looked up: its
class holds no other character. A Hangul syllable has two parts when its number among the syllables
is a multiple of twenty-eight. -/
def breakClass (c : Char) : BreakClass :=
  if c = ' ' then .sp
  else
    match breakClasses.classOf c with
    | .h3 => if (c.toNat - 0xac00) % 28 = 0 then .h2 else .h3
    | k => k

end PublisherConsole.Unicode
