import PublisherConsole.Unicode.Ranges

/-!
# User-perceived characters

A terminal draws a base character together with the marks, joiners and modifiers that belong to it.
`clusters` divides a text into such units by the rules for extended grapheme clusters.
-/

namespace PublisherConsole.Unicode

/-- The classes that decide where one user-perceived character ends. -/
inductive ClusterClass
  /-- The class of characters without a rule of their own. -/
  | other
  /-- The class of controls. -/
  | control
  /-- The class of marks that extend the character before them. -/
  | extend
  /-- The class of spacing marks. -/
  | spacingMark
  /-- The class of leading Hangul parts. -/
  | l
  /-- The class of Hangul vowels. -/
  | v
  /-- The class of trailing Hangul parts. -/
  | t
  /-- The class of marks that precede a character. -/
  | prepend
  /-- The class of regional indicators. -/
  | regional
  /-- The class of the line feed. -/
  | lf
  /-- The class of the carriage return. -/
  | cr
  /-- The class of the zero-width joiner. -/
  | zwj
  /-- The class of pictographs. -/
  | pictograph
  /-- The class of Hangul syllables with a trailing part. -/
  | lvt
  /-- The class of Hangul syllables without one. -/
  | lv
  deriving DecidableEq, Repr, Inhabited

/-- The class behind each letter of the table. -/
def ClusterClass.ofLetter : Char → ClusterClass
  | 'C' => .control
  | 'E' => .extend
  | 'S' => .spacingMark
  | 'L' => .l
  | 'V' => .v
  | 'T' => .t
  | 'P' => .prepend
  | 'R' => .regional
  | 'F' => .lf
  | 'N' => .cr
  | 'Z' => .zwj
  | 'X' => .pictograph
  | 'H' => .lvt
  | _ => .other

/-- Where each class begins. -/
def clusterClasses : ClassTable ClusterClass :=
  ClassTable.ofText .other ClusterClass.ofLetter "
  0:C a:F b:C d:N e:C 20:O 7f:C a0:O a9:X aa:O ad:C ae:X af:O 300:E 370:O 483:E 48a:O 591:E
  5be:O 5bf:E 5c0:O 5c1:E 5c3:O 5c4:E 5c6:O 5c7:E 5c8:O 600:P 606:O 610:E 61b:O 61c:C 61d:O
  64b:E 660:O 670:E 671:O 6d6:E 6dd:P 6de:O 6df:E 6e5:O 6e7:E 6e9:O 6ea:E 6ee:O 70f:P 710:O
  711:E 712:O 730:E 74b:O 7a6:E 7b1:O 7eb:E 7f4:O 7fd:E 7fe:O 816:E 81a:O 81b:E 824:O 825:E
  828:O 829:E 82e:O 859:E 85c:O 890:P 892:O 898:E 8a0:O 8ca:E 8e2:P 8e3:E 903:S 904:O 93a:E
  93b:S 93c:E 93d:O 93e:S 941:E 949:S 94d:E 94e:S 950:O 951:E 958:O 962:E 964:O 981:E 982:S
  984:O 9bc:E 9bd:O 9be:E 9bf:S 9c1:E 9c5:O 9c7:S 9c9:O 9cb:S 9cd:E 9ce:O 9d7:E 9d8:O 9e2:E
  9e4:O 9fe:E 9ff:O a01:E a03:S a04:O a3c:E a3d:O a3e:S a41:E a43:O a47:E a49:O a4b:E a4e:O
  a51:E a52:O a70:E a72:O a75:E a76:O a81:E a83:S a84:O abc:E abd:O abe:S ac1:E ac6:O ac7:E
  ac9:S aca:O acb:S acd:E ace:O ae2:E ae4:O afa:E b00:O b01:E b02:S b04:O b3c:E b3d:O b3e:E
  b40:S b41:E b45:O b47:S b49:O b4b:S b4d:E b4e:O b55:E b58:O b62:E b64:O b82:E b83:O bbe:E
  bbf:S bc0:E bc1:S bc3:O bc6:S bc9:O bca:S bcd:E bce:O bd7:E bd8:O c00:E c01:S c04:E c05:O
  c3c:E c3d:O c3e:E c41:S c45:O c46:E c49:O c4a:E c4e:O c55:E c57:O c62:E c64:O c81:E c82:S
  c84:O cbc:E cbd:O cbe:S cbf:E cc0:S cc2:E cc3:S cc5:O cc6:E cc7:S cc9:O cca:S ccc:E cce:O
  cd5:E cd7:O ce2:E ce4:O cf3:S cf4:O d00:E d02:S d04:O d3b:E d3d:O d3e:E d3f:S d41:E d45:O
  d46:S d49:O d4a:S d4d:E d4e:P d4f:O d57:E d58:O d62:E d64:O d81:E d82:S d84:O dca:E dcb:O
  dcf:E dd0:S dd2:E dd5:O dd6:E dd7:O dd8:S ddf:E de0:O df2:S df4:O e31:E e32:O e33:S e34:E
  e3b:O e47:E e4f:O eb1:E eb2:O eb3:S eb4:E ebd:O ec8:E ecf:O f18:E f1a:O f35:E f36:O f37:E
  f38:O f39:E f3a:O f3e:S f40:O f71:E f7f:S f80:E f85:O f86:E f88:O f8d:E f98:O f99:E fbd:O
  fc6:E fc7:O 102d:E 1031:S 1032:E 1038:O 1039:E 103b:S 103d:E 103f:O 1056:S 1058:E 105a:O
  105e:E 1061:O 1071:E 1075:O 1082:E 1083:O 1084:S 1085:E 1087:O 108d:E 108e:O 109d:E 109e:O
  1100:L 1160:V 11a8:T 1200:O 135d:E 1360:O 1712:E 1715:S 1716:O 1732:E 1734:S 1735:O 1752:E
  1754:O 1772:E 1774:O 17b4:E 17b6:S 17b7:E 17be:S 17c6:E 17c7:S 17c9:E 17d4:O 17dd:E 17de:O
  180b:E 180e:C 180f:E 1810:O 1885:E 1887:O 18a9:E 18aa:O 1920:E 1923:S 1927:E 1929:S 192c:O
  1930:S 1932:E 1933:S 1939:E 193c:O 1a17:E 1a19:S 1a1b:E 1a1c:O 1a55:S 1a56:E 1a57:S 1a58:E
  1a5f:O 1a60:E 1a61:O 1a62:E 1a63:O 1a65:E 1a6d:S 1a73:E 1a7d:O 1a7f:E 1a80:O 1ab0:E 1acf:O
  1b00:E 1b04:S 1b05:O 1b34:E 1b3b:S 1b3c:E 1b3d:S 1b42:E 1b43:S 1b45:O 1b6b:E 1b74:O 1b80:E
  1b82:S 1b83:O 1ba1:S 1ba2:E 1ba6:S 1ba8:E 1baa:S 1bab:E 1bae:O 1be6:E 1be7:S 1be8:E 1bea:S
  1bed:E 1bee:S 1bef:E 1bf2:S 1bf4:O 1c24:S 1c2c:E 1c34:S 1c36:E 1c38:O 1cd0:E 1cd3:O 1cd4:E
  1ce1:S 1ce2:E 1ce9:O 1ced:E 1cee:O 1cf4:E 1cf5:O 1cf7:S 1cf8:E 1cfa:O 1dc0:E 1e00:O 200b:C
  200c:E 200d:Z 200e:C 2010:O 2028:C 202f:O 203c:X 203d:O 2049:X 204a:O 2060:C 2070:O 20d0:E
  20f1:O 2122:X 2123:O 2139:X 213a:O 2194:X 219a:O 21a9:X 21ab:O 231a:X 231c:O 2328:X 2329:O
  2388:X 2389:O 23cf:X 23d0:O 23e9:X 23f4:O 23f8:X 23fb:O 24c2:X 24c3:O 25aa:X 25ac:O 25b6:X
  25b7:O 25c0:X 25c1:O 25fb:X 25ff:O 2600:X 2606:O 2607:X 2613:O 2614:X 2686:O 2690:X 2706:O
  2708:X 2713:O 2714:X 2715:O 2716:X 2717:O 271d:X 271e:O 2721:X 2722:O 2728:X 2729:O 2733:X
  2735:O 2744:X 2745:O 2747:X 2748:O 274c:X 274d:O 274e:X 274f:O 2753:X 2756:O 2757:X 2758:O
  2763:X 2768:O 2795:X 2798:O 27a1:X 27a2:O 27b0:X 27b1:O 27bf:X 27c0:O 2934:X 2936:O 2b05:X
  2b08:O 2b1b:X 2b1d:O 2b50:X 2b51:O 2b55:X 2b56:O 2cef:E 2cf2:O 2d7f:E 2d80:O 2de0:E 2e00:O
  302a:E 3030:X 3031:O 303d:X 303e:O 3099:E 309b:O 3297:X 3298:O 3299:X 329a:O a66f:E a673:O
  a674:E a67e:O a69e:E a6a0:O a6f0:E a6f2:O a802:E a803:O a806:E a807:O a80b:E a80c:O a823:S
  a825:E a827:S a828:O a82c:E a82d:O a880:S a882:O a8b4:S a8c4:E a8c6:O a8e0:E a8f2:O a8ff:E
  a900:O a926:E a92e:O a947:E a952:S a954:O a960:L a97d:O a980:E a983:S a984:O a9b3:E a9b4:S
  a9b6:E a9ba:S a9bc:E a9be:S a9c1:O a9e5:E a9e6:O aa29:E aa2f:S aa31:E aa33:S aa35:E aa37:O
  aa43:E aa44:O aa4c:E aa4d:S aa4e:O aa7c:E aa7d:O aab0:E aab1:O aab2:E aab5:O aab7:E aab9:O
  aabe:E aac0:O aac1:E aac2:O aaeb:S aaec:E aaee:S aaf0:O aaf5:S aaf6:E aaf7:O abe3:S abe5:E
  abe6:S abe8:E abe9:S abeb:O abec:S abed:E abee:O ac00:H d7a4:O d7b0:V d7c7:O d7cb:T d7fc:O
  fb1e:E fb1f:O fe00:E fe10:O fe20:E fe30:O feff:C ff00:O ff9e:E ffa0:O fff0:C fffc:O 101fd:E
  101fe:O 102e0:E 102e1:O 10376:E 1037b:O 10a01:E 10a04:O 10a05:E 10a07:O 10a0c:E 10a10:O
  10a38:E 10a3b:O 10a3f:E 10a40:O 10ae5:E 10ae7:O 10d24:E 10d28:O 10eab:E 10ead:O 10efd:E
  10f00:O 10f46:E 10f51:O 10f82:E 10f86:O 11000:S 11001:E 11002:S 11003:O 11038:E 11047:O
  11070:E 11071:O 11073:E 11075:O 1107f:E 11082:S 11083:O 110b0:S 110b3:E 110b7:S 110b9:E
  110bb:O 110bd:P 110be:O 110c2:E 110c3:O 110cd:P 110ce:O 11100:E 11103:O 11127:E 1112c:S
  1112d:E 11135:O 11145:S 11147:O 11173:E 11174:O 11180:E 11182:S 11183:O 111b3:S 111b6:E
  111bf:S 111c1:O 111c2:P 111c4:O 111c9:E 111cd:O 111ce:S 111cf:E 111d0:O 1122c:S 1122f:E
  11232:S 11234:E 11235:S 11236:E 11238:O 1123e:E 1123f:O 11241:E 11242:O 112df:E 112e0:S
  112e3:E 112eb:O 11300:E 11302:S 11304:O 1133b:E 1133d:O 1133e:E 1133f:S 11340:E 11341:S
  11345:O 11347:S 11349:O 1134b:S 1134e:O 11357:E 11358:O 11362:S 11364:O 11366:E 1136d:O
  11370:E 11375:O 11435:S 11438:E 11440:S 11442:E 11445:S 11446:E 11447:O 1145e:E 1145f:O
  114b0:E 114b1:S 114b3:E 114b9:S 114ba:E 114bb:S 114bd:E 114be:S 114bf:E 114c1:S 114c2:E
  114c4:O 115af:E 115b0:S 115b2:E 115b6:O 115b8:S 115bc:E 115be:S 115bf:E 115c1:O 115dc:E
  115de:O 11630:S 11633:E 1163b:S 1163d:E 1163e:S 1163f:E 11641:O 116ab:E 116ac:S 116ad:E
  116ae:S 116b0:E 116b6:S 116b7:E 116b8:O 1171d:E 11720:O 11722:E 11726:S 11727:E 1172c:O
  1182c:S 1182f:E 11838:S 11839:E 1183b:O 11930:E 11931:S 11936:O 11937:S 11939:O 1193b:E
  1193d:S 1193e:E 1193f:P 11940:S 11941:P 11942:S 11943:E 11944:O 119d1:S 119d4:E 119d8:O
  119da:E 119dc:S 119e0:E 119e1:O 119e4:S 119e5:O 11a01:E 11a0b:O 11a33:E 11a39:S 11a3a:P
  11a3b:E 11a3f:O 11a47:E 11a48:O 11a51:E 11a57:S 11a59:E 11a5c:O 11a84:P 11a8a:E 11a97:S
  11a98:E 11a9a:O 11c2f:S 11c30:E 11c37:O 11c38:E 11c3e:S 11c3f:E 11c40:O 11c92:E 11ca8:O
  11ca9:S 11caa:E 11cb1:S 11cb2:E 11cb4:S 11cb5:E 11cb7:O 11d31:E 11d37:O 11d3a:E 11d3b:O
  11d3c:E 11d3e:O 11d3f:E 11d46:P 11d47:E 11d48:O 11d8a:S 11d8f:O 11d90:E 11d92:O 11d93:S
  11d95:E 11d96:S 11d97:E 11d98:O 11ef3:E 11ef5:S 11ef7:O 11f00:E 11f02:P 11f03:S 11f04:O
  11f34:S 11f36:E 11f3b:O 11f3e:S 11f40:E 11f41:S 11f42:E 11f43:O 13430:C 13440:E 13441:O
  13447:E 13456:O 16af0:E 16af5:O 16b30:E 16b37:O 16f4f:E 16f50:O 16f51:S 16f88:O 16f8f:E
  16f93:O 16fe4:E 16fe5:O 16ff0:S 16ff2:O 1bc9d:E 1bc9f:O 1bca0:C 1bca4:O 1cf00:E 1cf2e:O
  1cf30:E 1cf47:O 1d165:E 1d166:S 1d167:E 1d16a:O 1d16d:S 1d16e:E 1d173:C 1d17b:E 1d183:O
  1d185:E 1d18c:O 1d1aa:E 1d1ae:O 1d242:E 1d245:O 1da00:E 1da37:O 1da3b:E 1da6d:O 1da75:E
  1da76:O 1da84:E 1da85:O 1da9b:E 1daa0:O 1daa1:E 1dab0:O 1e000:E 1e007:O 1e008:E 1e019:O
  1e01b:E 1e022:O 1e023:E 1e025:O 1e026:E 1e02b:O 1e08f:E 1e090:O 1e130:E 1e137:O 1e2ae:E
  1e2af:O 1e2ec:E 1e2f0:O 1e4ec:E 1e4f0:O 1e8d0:E 1e8d7:O 1e944:E 1e94b:O 1f000:X 1f100:O
  1f10d:X 1f110:O 1f12f:X 1f130:O 1f16c:X 1f172:O 1f17e:X 1f180:O 1f18e:X 1f18f:O 1f191:X
  1f19b:O 1f1ad:X 1f1e6:R 1f200:O 1f201:X 1f210:O 1f21a:X 1f21b:O 1f22f:X 1f230:O 1f232:X
  1f23b:O 1f23c:X 1f240:O 1f249:X 1f3fb:E 1f400:X 1f53e:O 1f546:X 1f650:O 1f680:X 1f700:O
  1f774:X 1f780:O 1f7d5:X 1f800:O 1f80c:X 1f810:O 1f848:X 1f850:O 1f85a:X 1f860:O 1f888:X
  1f890:O 1f8ae:X 1f900:O 1f90c:X 1f93b:O 1f93c:X 1f946:O 1f947:X 1fb00:O 1fc00:X 1fffe:O
  e0000:C e0020:E e0080:C e0100:E e01f0:C e1000:O"

/-- The cluster class of a character. -/
def clusterClass (c : Char) : ClusterClass :=
  if 0x20 ≤ c.toNat ∧ c.toNat < 0x7f then .other
  else
    match clusterClasses.classOf c with
    | .lvt => if (c.toNat - 0xac00) % 28 = 0 then .lv else .lvt
    | k => k

/-- What has been read of the cluster so far: the class of its last character, whether a pictograph
followed by marks only is open, and whether an odd number of regional indicators ends it. -/
structure ClusterState where
  last : ClusterClass
  openPictograph : Bool
  oddRegional : Bool

/-- Whether the cluster goes on with a character of the given class. -/
def ClusterState.joins (s : ClusterState) (k : ClusterClass) : Bool :=
  match s.last, k with
  | .cr, .lf => true
  | .cr, _ | .lf, _ | .control, _ => false
  | _, .cr | _, .lf | _, .control => false
  | .l, .l | .l, .v | .l, .lv | .l, .lvt => true
  | .lv, .v | .lv, .t | .v, .v | .v, .t => true
  | .lvt, .t | .t, .t => true
  | _, .extend | _, .zwj | _, .spacingMark => true
  | .prepend, _ => true
  | .zwj, .pictograph => s.openPictograph
  | .regional, .regional => s.oddRegional
  | _, _ => false

/-- The state behind the first character of a cluster. -/
def ClusterState.start (k : ClusterClass) : ClusterState :=
  ⟨k, k = .pictograph, k = .regional⟩

/-- The state behind one more character of the cluster. -/
def ClusterState.after (s : ClusterState) (k : ClusterClass) : ClusterState :=
  ⟨k, k = .pictograph || (s.openPictograph && (k = .extend || k = .zwj)),
    k = .regional && !(s.last = .regional && s.oddRegional)⟩

/-- The rest of a cluster whose characters so far are given in reverse, and the clusters behind
it. -/
def clustersFrom : ClusterState → List Char → List Char → List (List Char)
  | _, done, [] => [done.reverse]
  | s, done, c :: cs =>
    let k := clusterClass c
    if s.joins k then clustersFrom (s.after k) (c :: done) cs
    else done.reverse :: clustersFrom (ClusterState.start k) [c] cs

/-- The user-perceived characters of a text, in order. -/
def clusters : List Char → List (List Char)
  | [] => []
  | c :: cs => clustersFrom (ClusterState.start (clusterClass c)) [c] cs

end PublisherConsole.Unicode
