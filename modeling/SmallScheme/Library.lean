/-
  THE BUNDLED LIBRARY: two modules that every installation has.
-/
import SmallScheme.FileTree

namespace SmallScheme.Library

/-- Functions on lists. -/
def lists : String :=
";; List helpers in the style of The Little Schemer.

(define lat?
  (lambda (l)
    (cond
      ((null? l) #t)
      ((atom? (car l)) (lat? (cdr l)))
      (else #f))))

(define member?
  (lambda (a lat)
    (cond
      ((null? lat) #f)
      ((eq? (car lat) a) #t)
      (else (member? a (cdr lat))))))

(define rember
  (lambda (a lat)
    (cond
      ((null? lat) (quote ()))
      ((eq? (car lat) a) (cdr lat))
      (else (cons (car lat) (rember a (cdr lat)))))))

(define firsts
  (lambda (l)
    (cond
      ((null? l) (quote ()))
      (else (cons (car (car l)) (firsts (cdr l)))))))

(define length
  (lambda (lat)
    (cond
      ((null? lat) 0)
      (else (add1 (length (cdr lat)))))))

(define append
  (lambda (l1 l2)
    (cond
      ((null? l1) l2)
      (else (cons (car l1) (append (cdr l1) l2))))))
"

/-- Arithmetic that needs no more than counting. -/
def numbers : String :=
";; Arithmetic built only from add1, sub1 and zero?.

(define o+
  (lambda (n m)
    (cond
      ((zero? m) n)
      (else (o+ (add1 n) (sub1 m))))))

(define o-
  (lambda (n m)
    (cond
      ((zero? m) n)
      (else (o- (sub1 n) (sub1 m))))))

(define addtup
  (lambda (tup)
    (cond
      ((null? tup) 0)
      (else (+ (car tup) (addtup (cdr tup)))))))

(define expt
  (lambda (n m)
    (cond
      ((zero? m) 1)
      (else (* n (expt n (sub1 m)))))))
"

/-- The files of the library, by their names. -/
def files : List (String × String) := [("lists.scm", lists), ("numbers.scm", numbers)]

/-- The tree with the library in a folder. -/
def mount (folder : List String) (tree : FileTree) : FileTree :=
  { folders := folder :: tree.folders
    files := files.map (fun (name, text) => (folder ++ [name], text.toUTF8.toList)) ++ tree.files }

end SmallScheme.Library
